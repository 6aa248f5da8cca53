import GatewayCache.Proofs.Bus
import GatewayCache.Proofs.Processing.Telling
import GatewayCache.Replay.Schedule

/-! # Every schedule keeps the books

Whatever the order in which the reader, the loop and the writer move, what was read is
queued or applied, what the loop has emitted and may still emit is what the applied
updates tell, and what was written is the first part of it, as long as nothing was lost.
Something can move until all is done, and each move leaves less to do.
-/

namespace GatewayCache

theorem Loop.send_eq_true {loop after : Loop} {dispatch : Dispatch}
    (sent : loop.send dispatch = (true, after)) :
    loop.isOpen = true ∧ loop.finished = false ∧
      after = { loop with queue := loop.queue ++ [dispatch] } := by
  unfold send at sent
  split at sent
  · next accepts =>
    simp only [Loop.accepts, Bool.and_eq_true, Bool.not_eq_true'] at accepts
    simp only [Prod.mk.injEq, true_and, List.concat_eq_append] at sent
    exact ⟨accepts.1.1, accepts.1.2, sent.symm⟩
  · simp at sent

namespace Replay

namespace Reading

theorem ofLines_cons (strict : Bool) (number : Nat) (line : Option String)
    (rest : List (Option String)) :
    ofLines strict number (line :: rest) =
      match readLine strict number line with
      | .ok dispatch => (ofLines strict (number + 1) rest).after dispatch
      | .error failure => ({} : Reading).fail line failure := by
  cases line with
  | none => rfl
  | some line =>
    simp only [ofLines, readLine]
    cases Dispatch.ofLine line with
    | ok dispatch => rfl
    | error error => cases strict <;> rfl

/-- What was found in some lines, and then in those after them. -/
def append (first second : Reading) : Reading where
  lines := first.lines + second.lines
  skipped := first.skipped + second.skipped
  dispatches := first.dispatches ++ second.dispatches
  failure := first.failure.or second.failure

variable {reading rest : Reading}

theorem append_nil (reading : Reading) : reading.append {} = reading := by
  simp [append]

theorem add_append (dispatch : Option Dispatch) :
    (reading.add dispatch).append rest = reading.append (rest.after dispatch) := by
  cases dispatch with
  | none => simp [add, append, after, Nat.add_comm, Nat.add_left_comm]
  | some dispatch => simp [add, append, after, Nat.add_comm, Nat.add_left_comm]

theorem fail_append (unfailed : reading.failure = none) (line : Option String) (failure : Failure) :
    (reading.fail line failure).append {} = reading.append (({} : Reading).fail line failure) := by
  simp [fail, append, unfailed]

end Reading

namespace Underway

variable {strict : Bool} {cache : Cache} {log : List (Option String)} {first state next : Underway}
  {applied : List Dispatch} {emitted freed : List Event}

/-- The reader found the rest of what is in the log, and queued what the loop did not yet apply. -/
structure Reads (strict : Bool) (log : List (Option String)) (state : Underway)
    (applied : List Dispatch) : Prop where
  all : read strict log = state.reading.append (Reading.ofLines strict state.number state.unread)
  goesOn : state.unread ≠ [] → state.reading.failure = none ∧ state.loop.isOpen = true
  queued : state.reading.dispatches = applied ++ state.loop.queue
  ended : state.loop.finished = true → state.loop.isOpen = false ∧ state.loop.queue = []

/-- The loop has emitted and will emit what its updates tell. -/
structure Works (cache : Cache) (state : Underway) (applied : List Dispatch)
    (emitted freed : List Event) : Prop where
  goesOn : state.loop.finished = false →
    Processing.Tells cache state.loop.state applied (emitted ++ state.outbox) freed
  ended : state.loop.finished = true → state.outbox = [] ∧
    state.loop.state.cache = cache.applyAll applied ∧ cache.Told applied emitted freed

/-- The writer has fetched the first of the emitted events. -/
structure Writes (state : Underway) (emitted : List Event) : Prop where
  carries : state.bus.Carries emitted (state.written.length + state.lagged)
  written : state.lagged = 0 → state.written = emitted.take state.written.length

def Kept (strict : Bool) (cache : Cache) (log : List (Option String)) (state : Underway) : Prop :=
  ∃ applied emitted freed,
    state.Reads strict log applied ∧ state.Works cache applied emitted freed ∧ state.Writes emitted

theorem Works.of_running (running : state.loop.finished = false)
    (tells : Processing.Tells cache state.loop.state applied (emitted ++ state.outbox) freed) :
    state.Works cache applied emitted freed :=
  ⟨fun _ => tells, fun finished => Bool.noConfusion (running.symm.trans finished)⟩

theorem Works.tells (works : state.Works cache applied emitted freed)
    (running : state.loop.finished = false) (idle : state.outbox = []) :
    Processing.Tells cache state.loop.state applied emitted freed := by
  have tells := works.goesOn running
  rwa [idle, List.append_nil] at tells

theorem kept_start (strict : Bool) (cache : Cache) (log : List (Option String)) :
    (start cache log).Kept strict cache log := by
  refine ⟨[], [], [], ⟨?_, fun _ => ⟨rfl, rfl⟩, rfl, nofun⟩, ⟨fun _ => ?_, nofun⟩, ⟨?_, fun _ => rfl⟩⟩
  · simp [start, number, Reading.append, read]
  · exact Processing.tells_ofCache cache
  · exact Bus.carries_subscribe _

theorem Reads.add (reads : state.Reads strict log applied) {line : Option String}
    {rest : List (Option String)} {dispatch : Option Dispatch} (next : state.unread = line :: rest)
    (found : readLine strict state.number line = .ok dispatch) :
    read strict log = (state.reading.add dispatch).append
      (Reading.ofLines strict (state.number + 1) rest) := by
  rw [reads.all, next, Reading.ofLines_cons, found, Reading.add_append]

theorem Writes.emit (writes : state.Writes emitted) (event : Event) (rest : List Event) :
    { state with outbox := rest, bus := state.bus.emit event }.Writes (emitted ++ [event]) where
  carries := writes.carries.emit event
  written unlagged := by
    have fetched := Nat.le_of_add_right_le writes.carries.seen
    rw [List.take_append_of_le_length fetched]
    exact writes.written unlagged

theorem Writes.receive (writes : state.Writes emitted) {found : Received} {bus : Bus}
    (fetched : state.bus.receive 0 = (some found, bus)) :
    ({ state with bus }.write found).Writes emitted := by
  obtain ⟨carries, which⟩ := writes.carries.receive fetched
  cases found with
  | lagged missed =>
    refine ⟨by rwa [Nat.add_assoc] at carries, fun unlagged => ?_⟩
    simp only [write] at unlagged
    omega
  | event event =>
    refine ⟨by simpa [write, Nat.add_right_comm, Received.count] using carries, fun unlagged => ?_⟩
    simp only [write] at unlagged ⊢
    rw [unlagged, Nat.add_zero] at which
    rw [List.length_append, List.length_singleton, List.take_add_one, which,
      ← writes.written unlagged]
    rfl

theorem Step.kept (step : state.Step strict next) (sound : cache.gates.Sound)
    (kept : state.Kept strict cache log) : next.Kept strict cache log := by
  obtain ⟨applied, emitted, freed, reads, works, writes⟩ := kept
  cases step with
  | skip line found =>
    have more := reads.goesOn (by simp [line])
    refine ⟨applied, emitted, freed, ⟨reads.add line found, fun _ => more, ?_, reads.ended⟩,
      ⟨works.goesOn, works.ended⟩, ⟨writes.carries, writes.written⟩⟩
    simpa [Reading.add] using reads.queued
  | feed line found sent =>
    obtain ⟨isOpen, running, rfl⟩ := Loop.send_eq_true sent
    have more := reads.goesOn (by simp [line])
    refine ⟨applied, emitted, freed, ⟨reads.add line found, fun _ => more, ?_, ?_⟩,
      ⟨works.goesOn, works.ended⟩, ⟨writes.carries, writes.written⟩⟩
    · simp [Reading.add, reads.queued]
    · exact fun finished => Bool.noConfusion (running.symm.trans finished)
  | fail line found =>
    obtain ⟨unfailed, -⟩ := reads.goesOn (by simp [line])
    refine ⟨applied, emitted, freed, ⟨?_, nofun, reads.queued, ?_⟩,
      ⟨works.goesOn, works.ended⟩, ⟨writes.carries, writes.written⟩⟩
    · rw [reads.all, line, Reading.ofLines_cons, found]
      exact (Reading.fail_append unfailed _ _).symm
    · exact fun finished => ⟨rfl, (reads.ended finished).2⟩
  | close read =>
    refine ⟨applied, emitted, freed, ⟨reads.all, fun more => absurd read more, reads.queued, ?_⟩,
      ⟨works.goesOn, works.ended⟩, ⟨writes.carries, writes.written⟩⟩
    exact fun finished => ⟨rfl, (reads.ended finished).2⟩
  | letGo running idle held settled =>
    have tells := (works.tells running idle).letGo held settled
    exact ⟨applied, emitted, _, ⟨reads.all, reads.goesOn, reads.queued, reads.ended⟩,
      .of_running running tells, ⟨writes.carries, writes.written⟩⟩
  | @apply dispatch rest running idle quiet queue =>
    have tells := (works.tells running idle).apply sound quiet dispatch
    refine ⟨applied ++ [dispatch], emitted, freed, ⟨reads.all, reads.goesOn, ?_, ?_⟩,
      .of_running running tells, ⟨writes.carries, writes.written⟩⟩
    · rw [reads.queued, queue, List.append_cons]
    · exact fun finished => Bool.noConfusion (running.symm.trans finished)
  | @emit event rest outbox =>
    refine ⟨applied, emitted ++ [event], freed, ⟨reads.all, reads.goesOn, reads.queued, reads.ended⟩,
      ⟨fun running => ?_, fun finished => ?_⟩, writes.emit event rest⟩
    · have tells := works.goesOn running
      rwa [outbox, List.append_cons] at tells
    · have idle := (works.ended finished).1
      rw [outbox] at idle
      cases idle
  | finish running idle quiet empty shut =>
    have tells := works.tells running idle
    refine ⟨applied, emitted, freed, ⟨reads.all, reads.goesOn, ?_, fun _ => ⟨shut, rfl⟩⟩,
      ⟨nofun, fun _ => ⟨idle, tells.cache, tells.told_of_quiet quiet⟩⟩,
      ⟨writes.carries, writes.written⟩⟩
    rw [reads.queued, empty]
    rfl
  | @receive found bus fetched =>
    refine ⟨applied, emitted, freed, ?_, ?_, writes.receive fetched⟩
    · cases found <;> exact ⟨reads.all, reads.goesOn, reads.queued, reads.ended⟩
    · cases found <;> exact ⟨works.goesOn, works.ended⟩

theorem Reaches.kept {count : Nat} (reaches : Reaches strict (start cache log) count state)
    (sound : cache.gates.Sound) : state.Kept strict cache log := by
  induction reaches with
  | refl => exact kept_start strict cache log
  | step _ step ih => exact step.kept sound ih

/-- When the writer has caught up, the reader or the loop can move. -/
theorem Kept.moves (kept : state.Kept strict cache log) (behind : ¬ state.Done)
    (caughtUp : (state.bus.receive 0).1 = none) :
    ∃ next, state.Step strict next := by
  obtain ⟨applied, emitted, freed, reads, works, -⟩ := kept
  by_cases finished : state.loop.finished = true
  · refine absurd ⟨?_, finished, caughtUp⟩ behind
    by_contra more
    have isOpen := (reads.goesOn more).2
    rw [(reads.ended finished).1] at isOpen
    cases isOpen
  have running := Bool.eq_false_iff.mpr finished
  cases outbox : state.outbox with
  | cons event rest => exact ⟨_, .emit outbox⟩
  | nil =>
    by_cases quiet : state.loop.state.Quiet
    · cases queue : state.loop.queue with
      | cons dispatch rest => exact ⟨_, .apply running outbox quiet queue⟩
      | nil =>
        cases unread : state.unread with
        | nil =>
          cases isOpen : state.loop.isOpen with
          | true => exact ⟨_, .close unread isOpen⟩
          | false => exact ⟨_, .finish running outbox quiet queue isOpen⟩
        | cons line rest =>
          have isOpen := (reads.goesOn (by simp [unread])).2
          cases found : readLine strict state.number line with
          | error failure => exact ⟨_, .fail unread found⟩
          | ok dispatch =>
            cases dispatch with
            | none => exact ⟨_, .skip unread found⟩
            | some dispatch =>
              -- The queue is empty, so there is room.
              have accepts : state.loop.accepts = true := by
                simp [Loop.accepts, isOpen, running, queue, Loop.queueCapacity]
              exact ⟨_, .feed unread found (if_pos accepts)⟩
    · simp only [Processing.Quiet, not_forall] at quiet
      obtain ⟨deferred, member, settled⟩ := quiet
      obtain ⟨earlier, later, held⟩ := List.append_of_mem member
      exact ⟨_, .letGo running outbox held settled⟩

/-- A bound on the moves to come: what is in some place counts for more than what can come of it in the
places after. -/
def work (state : Underway) : Nat :=
  9 * state.unread.length + 8 * state.loop.queue.length + 3 * state.loop.state.pending.length +
    2 * state.outbox.length + (state.bus.sent - (state.written.length + state.lagged)) +
    state.loop.isOpen.toNat + (!state.loop.finished).toNat

theorem Step.work_lt (step : state.Step strict next) (kept : state.Kept strict cache log) :
    next.work < state.work := by
  obtain ⟨applied, emitted, freed, reads, works, writes⟩ := kept
  have sent := writes.carries.sent
  have behind := writes.carries.seen
  unfold work
  cases step with
  | skip line =>
    simp only [line, List.length_cons]
    omega
  | feed line _ queued =>
    obtain ⟨-, -, rfl⟩ := Loop.send_eq_true queued
    simp only [line, List.length_append, List.length_cons, List.length_nil]
    omega
  | fail line =>
    simp only [line, Loop.close, List.length_cons, List.length_nil, Bool.toNat_false]
    omega
  | close _ isOpen =>
    simp only [Loop.close, isOpen, Bool.toNat_false, Bool.toNat_true]
    omega
  | @letGo earlier later deferred _ idle held =>
    have one := state.loop.state.cache.gates.free_length_le [deferred]
    simp only [idle, held, List.length_append, List.length_cons, List.length_nil] at one ⊢
    omega
  | @apply dispatch rest _ idle _ queue =>
    have few := state.loop.state.cache.emitted_length_le dispatch
    simp only [idle, queue, Processing.apply, List.length_append, List.length_cons, List.length_nil]
    omega
  | @emit event rest outbox =>
    have more := (writes.emit event rest).carries.sent
    simp only [List.length_append, List.length_singleton] at more
    simp only [outbox, more, sent, List.length_cons]
    omega
  | finish running _ _ empty =>
    simp only [running, empty, Loop.finish, List.length_nil, Bool.not_true, Bool.not_false,
      Bool.toNat_false, Bool.toNat_true]
    omega
  | @receive found bus fetched =>
    obtain ⟨carries, which⟩ := writes.carries.receive fetched
    have same := carries.sent
    have within := carries.seen
    cases found with
    | lagged missed =>
      have lost := which.1
      simp only [write, Received.count] at within ⊢
      omega
    | event event =>
      simp only [write, Received.count, List.length_append, List.length_singleton] at within ⊢
      omega

theorem Reaches.count_le {count : Nat} (reaches : Reaches strict (start cache log) count state)
    (sound : cache.gates.Sound) : count + state.work ≤ 9 * log.length + 2 := by
  induction reaches with
  | refl => simp [work, start, Loop.ofCache, Processing.ofCache, Bus.ofCapacity, Bus.subscribe]
  | step before step ih =>
    have less := step.work_lt (before.kept sound)
    omega

/-- The writer has lost nothing, and there is at most one event that it has yet to fetch. -/
def KeepsUp (state : Underway) : Prop :=
  state.lagged = 0 ∧ state.bus.sent ≤ state.written.length + 1

theorem KeepsUp.step (keepsUp : state.KeepsUp) (caughtUp : (state.bus.receive 0).1 = none)
    (kept : state.Kept strict cache log) (step : state.Step strict next) : next.KeepsUp := by
  obtain ⟨unlagged, close⟩ := keepsUp
  obtain ⟨-, emitted, -, -, -, writes⟩ := kept
  have all := writes.carries.receive_eq_none.mp caughtUp
  have sent := writes.carries.sent
  rw [unlagged, Nat.add_zero] at all
  cases step with
  | @emit event rest outbox =>
    refine ⟨unlagged, ?_⟩
    have more := (writes.carries.emit event).sent
    simp only [List.length_append, List.length_singleton] at more ⊢
    omega
  | receive fetched =>
    rw [fetched] at caughtUp
    cases caughtUp
  | skip | feed | fail | close | letGo | apply | finish => exact ⟨unlagged, close⟩

/-- The writer finds the one event that it has yet to fetch, for at least one is kept. -/
theorem KeepsUp.receive (keepsUp : state.KeepsUp) (kept : state.Kept strict cache log)
    {found : Received} {bus : Bus} (fetched : state.bus.receive 0 = (some found, bus)) :
    ({ state with bus }.write found).KeepsUp := by
  obtain ⟨unlagged, close⟩ := keepsUp
  obtain ⟨-, emitted, -, -, -, writes⟩ := kept
  have sent := writes.carries.sent
  have room := writes.carries.capacity
  obtain ⟨carries, which⟩ := writes.carries.receive fetched
  have same := carries.sent
  cases found with
  | lagged missed =>
    simp only at which
    omega
  | event event =>
    refine ⟨unlagged, ?_⟩
    simp only [write, List.length_append, List.length_singleton]
    omega

/-- A writer that fetches every event as soon as it is on the bus loses none. -/
theorem exists_done {count : Nat} (reaches : Reaches strict (start cache log) count state)
    (sound : cache.gates.Sound) (keepsUp : state.KeepsUp) :
    ∃ count final, Reaches strict (start cache log) count final ∧ final.Done ∧ final.lagged = 0 := by
  induction left : state.work using Nat.strongRecOn generalizing state count with
  | ind _ ih =>
    subst left
    have kept := reaches.kept sound
    by_cases done : state.Done
    · exact ⟨count, state, reaches, done, keepsUp.1⟩
    cases fetched : state.bus.receive 0 with
    | mk found bus =>
      cases found with
      | some found =>
        have step : state.Step strict _ := .receive fetched
        exact ih _ (step.work_lt kept) (reaches.step step) (keepsUp.receive kept fetched) rfl
      | none =>
        have caughtUp : (state.bus.receive 0).1 = none := by rw [fetched]
        obtain ⟨next, step⟩ := kept.moves done caughtUp
        exact ih _ (step.work_lt kept) (reaches.step step) (keepsUp.step caughtUp kept step) rfl

end Underway

end Replay

end GatewayCache
