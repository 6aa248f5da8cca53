import GatewayCache.Proofs.Replay.Accounting
import GatewayCache.Replay.Strict

/-! # Strict replays

Strict or not, a reader does the same with lines that can be read. The first that cannot be
read is to the strict reader what the end of the log is to the lenient one: both close the
queue, and the loop and the writer go on from there as if nothing were different. So every
schedule of the one is a schedule of the other, move by move.
-/

namespace GatewayCache.Replay

variable {cache : Cache} {log before rest : List (Option String)} {line : Option String}

theorem readLine_of_readable (can : readable line) (number : Nat) :
    ∃ dispatch, ∀ strict, readLine strict number line = .ok dispatch := by
  cases line with
  | none => cases can
  | some text =>
    rw [readable] at can
    cases found : Dispatch.ofLine text with
    | error error => simp [found, Except.isOk, Except.toBool] at can
    | ok dispatch => exact ⟨dispatch, fun strict => by simp [readLine, found]⟩

theorem readLine_of_unreadable (cannot : readable line = false) (count : Nat) :
    readLine true (count + 1) line = .error (failureAt count line) := by
  cases line with
  | none => rfl
  | some text =>
    rw [readable] at cannot
    cases found : Dispatch.ofLine text with
    | error error => simp [readLine, found, failureAt]
    | ok dispatch => simp [found, Except.isOk, Except.toBool] at cannot

namespace Reading

theorem after_append (dispatch : Option Dispatch) (first second : Reading) :
    (first.after dispatch).append second = (first.append second).after dispatch := by
  cases dispatch with
  | none => simp [after, append, Nat.add_right_comm]
  | some dispatch => simp [after, append, Nat.add_right_comm]

theorem failure_after (dispatch : Option Dispatch) (reading : Reading) :
    (reading.after dispatch).failure = reading.failure := by
  cases dispatch <;> rfl

theorem ofLines_append (can : ∀ line ∈ before, readable line) (rest : List (Option String))
    (strict : Bool) (number : Nat) :
    (ofLines false number before).failure = none ∧ ofLines strict number (before ++ rest) =
      (ofLines false number before).append (ofLines strict (number + before.length) rest) := by
  induction before generalizing number with
  | nil => simp [ofLines, append]
  | cons line more ih =>
    obtain ⟨dispatch, reads⟩ := readLine_of_readable (can line (by simp)) number
    obtain ⟨unfailed, same⟩ := ih (fun other member => can other (by simp [member])) (number + 1)
    rw [List.cons_append, ofLines_cons, ofLines_cons]
    simp only [reads, same, after_append, failure_after, unfailed, List.length_cons, true_and,
      Nat.add_assoc, Nat.add_comm 1]

end Reading

theorem read_of_readable (can : ∀ line ∈ log, readable line) :
    read true log = read false log ∧ (read false log).failure = none := by
  obtain ⟨unfailed, same⟩ := Reading.ofLines_append can [] true 1
  rw [List.append_nil] at same
  refine ⟨?_, unfailed⟩
  rw [read, same, Reading.ofLines, Reading.append_nil, read]

/-- Up to the first line that cannot be read, strict reading finds what lenient reading does. -/
theorem read_stops (can : ∀ line ∈ before, readable line) (cannot : readable line = false)
    (rest : List (Option String)) :
    (read true (before ++ line :: rest)).dispatches = (read false before).dispatches ∧
      (read true (before ++ line :: rest)).failure = some (failureAt before.length line) ∧
      (read false before).failure = none := by
  obtain ⟨unfailed, same⟩ := Reading.ofLines_append can (line :: rest) true 1
  rw [Nat.add_comm, Reading.ofLines_cons, readLine_of_unreadable cannot] at same
  rw [read, read, same]
  simp [Reading.append, Reading.fail, unfailed]

theorem run_output (cache : Cache) (options : Options) (limit : Option Nat)
    (log : List (Option String)) :
    (run cache options limit log).output = ({ limit } : Output).writeEvents options.format
      (events cache (read options.strict log).dispatches).1 := by
  simp only [run]
  split
  · rfl
  · split <;> rfl

theorem run_summary (cache : Cache) (options : Options) (log : List (Option String)) :
    let reading := read options.strict log
    (run cache options none log).summary =
      match reading.failure with
      | some failure => .error failure
      | none =>
        .ok
          { lines := reading.lines
            dispatched := reading.dispatches.length
            skipped := reading.skipped
            events := (events cache reading.dispatches).1.length
            lagged := 0
            cache := leftBy cache options.strict log } := by
  intro reading
  have unlimited : ({} : Output).limit = none := rfl
  have working := (Output.writeEvents_text options.format (events cache reading.dispatches).1
    unlimited rfl).1
  simp only [run, leftBy]
  rw [if_neg (by rw [working]; decide)]
  cases (read options.strict log).failure <;> rfl

namespace Underway

variable {strict : Bool} {state next : Underway}

/-- The state after the reader has moved, if it can. -/
def turn? (strict : Bool) (state : Underway) : Option Underway :=
  match state.unread with
  | [] => if state.loop.isOpen then some { state with loop := state.loop.close } else none
  | line :: rest =>
    match readLine strict state.number line with
    | .error failure => some
      { state with
        unread := [], reading := state.reading.fail line failure, loop := state.loop.close }
    | .ok none => some { state with unread := rest, reading := state.reading.add none }
    | .ok (some dispatch) =>
      match state.loop.send dispatch with
      | (true, loop) =>
        some { state with unread := rest, reading := state.reading.add (some dispatch), loop }
      | (false, _) => none

/-- What the reader can do: come to the end, fail, pass over a line or queue its update. -/
theorem turn?_cases (turn : state.turn? strict = some next) :
    (state.unread = [] ∧ state.loop.isOpen = true ∧ next = { state with loop := state.loop.close }) ∨
    ∃ line rest, state.unread = line :: rest ∧
      ((∃ failure, readLine strict state.number line = .error failure ∧ next =
          { state with
            unread := [], reading := state.reading.fail line failure, loop := state.loop.close }) ∨
        (readLine strict state.number line = .ok none ∧
          next = { state with unread := rest, reading := state.reading.add none }) ∨
        ∃ dispatch loop, readLine strict state.number line = .ok (some dispatch) ∧
          state.loop.send dispatch = (true, loop) ∧ next =
            { state with unread := rest, reading := state.reading.add (some dispatch), loop }) := by
  unfold turn? at turn
  split at turn
  · next read =>
    split at turn
    · next isOpen => exact .inl ⟨read, isOpen, (Option.some.inj turn).symm⟩
    · cases turn
  · next line rest unread =>
    refine .inr ⟨line, rest, unread, ?_⟩
    split at turn
    · next failure found => exact .inl ⟨failure, found, (Option.some.inj turn).symm⟩
    · next found => exact .inr (.inl ⟨found, (Option.some.inj turn).symm⟩)
    · next dispatch found =>
      split at turn
      · next loop sent =>
        exact .inr (.inr ⟨dispatch, loop, found, sent, (Option.some.inj turn).symm⟩)
      · cases turn

/-- A move of the loop or the writer: the reader is left alone, and whatever it does or has found, the
same move can be made. -/
structure Aside (state next : Underway) : Prop where
  unread : next.unread = state.unread
  reading : next.reading = state.reading
  isOpen : next.loop.isOpen = state.loop.isOpen
  ended : next.loop.finished = true → state.loop.finished = true ∨ state.loop.isOpen = false
  anyhow : ∀ strict unread reading,
    Step strict { state with unread, reading } { next with unread, reading }

theorem step_iff : state.Step strict next ↔ state.turn? strict = some next ∨ state.Aside next := by
  constructor
  · intro step
    cases step with
    | skip line found => exact .inl (by simp [turn?, line, found])
    | feed line found sent => exact .inl (by simp [turn?, line, found, sent])
    | fail line found => exact .inl (by simp [turn?, line, found])
    | close read isOpen => exact .inl (by simp [turn?, read, isOpen])
    | letGo running idle held settled =>
      exact .inr ⟨rfl, rfl, rfl, .inl, fun _ _ _ => .letGo running idle held settled⟩
    | apply running idle quiet queue =>
      exact .inr ⟨rfl, rfl, rfl, .inl, fun _ _ _ => .apply running idle quiet queue⟩
    | emit outbox => exact .inr ⟨rfl, rfl, rfl, .inl, fun _ _ _ => .emit outbox⟩
    | finish running idle quiet empty shut =>
      exact .inr ⟨rfl, rfl, rfl, fun _ => .inr shut,
        fun _ _ _ => .finish running idle quiet empty shut⟩
    | @receive found bus fetched =>
      have anyhow (strict : Bool) (unread : List (Option String)) (reading : Reading) :
          Step strict { state with unread, reading }
            ({ state with unread, reading, bus }.write found) :=
        .receive fetched
      cases found <;> exact .inr ⟨rfl, rfl, rfl, .inl, anyhow⟩
  · rintro (turn | aside)
    · rcases turn?_cases turn with ⟨read, isOpen, rfl⟩ | ⟨line, rest, unread, moved⟩
      · exact .close read isOpen
      rcases moved with ⟨failure, found, rfl⟩ | ⟨found, rfl⟩ | ⟨dispatch, loop, found, sent, rfl⟩
      · exact .fail unread found
      · exact .skip unread found
      · exact .feed unread found sent
    · have step := aside.anyhow strict state.unread state.reading
      have same : { next with unread := state.unread, reading := state.reading } = next := by
        rw [← aside.unread, ← aside.reading]
      rwa [same] at step

/-- While a log of readable lines is read: none of those to come ends the reading, and the queue stays
open until all are read. -/
structure Heads (log : List (Option String)) (state : Underway) : Prop where
  readable : ∀ line ∈ state.unread, readable line
  number : state.number + state.unread.length = log.length + 1
  unfailed : state.reading.failure = none
  goesOn : state.unread ≠ [] → state.loop.isOpen = true
  ended : state.loop.finished = true → state.loop.isOpen = false

theorem Heads.behind (heads : state.Heads log) (unread : state.unread = line :: rest) :
    (∀ other ∈ rest, Replay.readable other) ∧
      state.number + 1 + rest.length = log.length + 1 ∧ state.loop.isOpen = true := by
  refine ⟨fun other member => heads.readable other (by simp [unread, member]), ?_,
    heads.goesOn (by simp [unread])⟩
  rw [← heads.number, unread, List.length_cons]
  omega

theorem Heads.turn (heads : state.Heads log) (turn : state.turn? strict = some next) :
    next.Heads log := by
  rcases turn?_cases turn with ⟨read, -, rfl⟩ | ⟨line, rest, unread, moved⟩
  · exact ⟨heads.readable, heads.number, heads.unfailed, fun more => absurd read more, fun _ => rfl⟩
  obtain ⟨others, counted, isOpen⟩ := heads.behind unread
  rcases moved with ⟨failure, fails, rfl⟩ | ⟨-, rfl⟩ | ⟨dispatch, loop, -, sent, rfl⟩
  · obtain ⟨dispatch, reads⟩ :=
      readLine_of_readable (heads.readable line (by simp [unread])) state.number
    rw [reads] at fails
    cases fails
  · exact ⟨others, counted, heads.unfailed, fun _ => isOpen, heads.ended⟩
  · obtain ⟨-, -, rfl⟩ := Loop.send_eq_true sent
    exact ⟨others, counted, heads.unfailed, fun _ => isOpen, heads.ended⟩

theorem Heads.aside (heads : state.Heads log) (aside : state.Aside next) : next.Heads log where
  readable := aside.unread ▸ heads.readable
  number := by
    rw [Underway.number, aside.unread, aside.reading]
    exact heads.number
  unfailed := aside.reading ▸ heads.unfailed
  goesOn := by rw [aside.unread, aside.isOpen]; exact heads.goesOn
  ended finished := by
    rw [aside.isOpen]
    exact (aside.ended finished).elim heads.ended id

theorem Reaches.heads (can : ∀ line ∈ log, Replay.readable line) {count : Nat}
    (reaches : Reaches strict (start cache log) count state) : state.Heads log := by
  induction reaches with
  | refl => exact ⟨can, Nat.add_comm .., rfl, fun _ => rfl, nofun⟩
  | step _ step ih =>
    rcases step_iff.mp step with turn | aside
    · exact ih.turn turn
    · exact ih.aside aside

theorem Heads.turn?_eq (heads : state.Heads log) : state.turn? true = state.turn? false := by
  unfold turn?
  split
  · rfl
  · next line rest unread =>
    obtain ⟨dispatch, reads⟩ :=
      readLine_of_readable (heads.readable line (by simp [unread])) state.number
    rw [reads true, reads false]

theorem reaches_iff_of_readable (can : ∀ line ∈ log, Replay.readable line) {count : Nat} :
    Reaches true (start cache log) count state ↔ Reaches false (start cache log) count state := by
  constructor
  · intro reaches
    induction reaches with
    | refl => exact .refl
    | step before step ih =>
      rw [step_iff, (before.heads can).turn?_eq, ← step_iff] at step
      exact .step ih step
  · intro reaches
    induction reaches with
    | refl => exact .refl
    | step before step ih =>
      rw [step_iff, ← (before.heads can).turn?_eq, ← step_iff] at step
      exact .step ih step

/-- What is under way with a strict reader while a lenient one reads the lines before: there are more
lines ahead, until the lenient reader closes the queue and the strict one fails. -/
def stopped (line : Option String) (rest : List (Option String)) (failure : Failure)
    (state : Underway) : Underway :=
  { state with
    unread := if state.loop.isOpen then state.unread ++ line :: rest else state.unread
    reading := if state.loop.isOpen then state.reading else state.reading.fail line failure }

section Stopped

variable {failure : Failure}

theorem turn?_stopped (heads : state.Heads before) (cannot : Replay.readable line = false) :
    (state.stopped line rest (failureAt before.length line)).turn? true =
      (state.turn? false).map (stopped line rest (failureAt before.length line)) := by
  cases unread : state.unread with
  | nil =>
    cases isOpen : state.loop.isOpen with
    | false => simp [stopped, turn?, unread, isOpen]
    | true =>
      have number : state.reading.lines + 1 = before.length + 1 := by
        have counted := heads.number
        rwa [unread] at counted
      have fails := readLine_of_unreadable cannot before.length
      simp [stopped, turn?, unread, isOpen, Underway.number, number, fails, Loop.close]
  | cons first more =>
    have isOpen := heads.goesOn (by simp [unread])
    obtain ⟨dispatch, reads⟩ :=
      readLine_of_readable (heads.readable first (by simp [unread])) (state.reading.lines + 1)
    cases dispatch with
    | none => simp [stopped, turn?, unread, Underway.number, reads, isOpen]
    | some dispatch =>
      simp only [stopped, turn?, unread, isOpen, if_true, List.cons_append, Underway.number, reads]
      cases sent : state.loop.send dispatch with
      | mk accepted loop =>
        cases accepted with
        | false => rfl
        | true =>
          obtain ⟨-, -, rfl⟩ := Loop.send_eq_true sent
          simp [stopped, isOpen]

theorem aside_stopped : (state.stopped line rest failure).Aside next ↔
    ∃ other, state.Aside other ∧ other.stopped line rest failure = next := by
  constructor
  · rintro ⟨unread, reading, still, ended, anyhow⟩
    refine ⟨{ next with unread := state.unread, reading := state.reading },
      ⟨rfl, rfl, still, ended, anyhow⟩, ?_⟩
    simp only [stopped] at unread reading still ⊢
    rw [still, ← unread, ← reading]
  · rintro ⟨other, ⟨unread, reading, still, ended, anyhow⟩, rfl⟩
    refine ⟨?_, ?_, still, ended, anyhow⟩
    · simp only [stopped, still, unread]
    · simp only [stopped, still, reading]

/-- Every schedule with the strict reader is one of the lines before, and the other way round. -/
theorem reaches_stopped_iff (can : ∀ line ∈ before, Replay.readable line)
    (cannot : Replay.readable line = false) {count : Nat} :
    Reaches true (start cache (before ++ line :: rest)) count next ↔
      ∃ state, Reaches false (start cache before) count state ∧
        state.stopped line rest (failureAt before.length line) = next := by
  constructor
  · intro reaches
    induction reaches with
    | refl => exact ⟨_, .refl, rfl⟩
    | step _ step ih =>
      obtain ⟨state, reaches, rfl⟩ := ih
      rcases step_iff.mp step with turn | aside
      · rw [turn?_stopped (reaches.heads can) cannot] at turn
        obtain ⟨other, moved, rfl⟩ := Option.map_eq_some_iff.mp turn
        exact ⟨other, .step reaches (step_iff.mpr (.inl moved)), rfl⟩
      · obtain ⟨other, moved, rfl⟩ := aside_stopped.mp aside
        exact ⟨other, .step reaches (step_iff.mpr (.inr moved)), rfl⟩
  · rintro ⟨state, reaches, rfl⟩
    induction reaches with
    | refl => exact .refl
    | @step count state next reaches step ih =>
      refine .step ih (step_iff.mpr ?_)
      rcases step_iff.mp step with turn | aside
      · rw [turn?_stopped (reaches.heads can) cannot, turn]
        exact .inl rfl
      · exact .inr (aside_stopped.mpr ⟨next, aside, rfl⟩)

theorem result_stopped (shut : state.loop.isOpen = false) :
    (state.stopped line rest failure).result = .error failure := by
  simp [stopped, result, shut, Reading.fail]

theorem done_stopped (shut : state.loop.isOpen = false) :
    (state.stopped line rest failure).Done ↔ state.Done := by
  simp [stopped, Done, shut]

end Stopped

end Underway

theorem comesTo_iff_of_readable (can : ∀ line ∈ log, readable line) {ending : Ending}
    {result : Except Failure Summary} :
    ComesTo true cache log ending result ↔ ComesTo false cache log ending result := by
  simp only [ComesTo, Underway.reaches_iff_of_readable can]

theorem comesTo_stopped_iff (can : ∀ line ∈ before, readable line)
    (cannot : readable line = false) {ending : Ending} {result : Except Failure Summary} :
    ComesTo true cache (before ++ line :: rest) ending result ↔
      result = .error (failureAt before.length line) ∧
        ∃ summary, ComesTo false cache before ending (.ok summary) := by
  constructor
  · rintro ⟨count, _, reaches, done, rfl, rfl⟩
    obtain ⟨state, leads, rfl⟩ := (Underway.reaches_stopped_iff can cannot).mp reaches
    have heads := leads.heads can
    have shut : state.loop.isOpen = false := heads.ended done.2.1
    obtain ⟨summary, sums⟩ : ∃ summary, state.result = .ok summary :=
      ⟨_, by rw [Underway.result, heads.unfailed]⟩
    exact ⟨Underway.result_stopped shut, summary, count, state, leads,
      (Underway.done_stopped shut).mp done, rfl, sums⟩
  · rintro ⟨rfl, _, count, state, reaches, done, rfl, -⟩
    have shut : state.loop.isOpen = false := (reaches.heads can).ended done.2.1
    exact ⟨count, _, (Underway.reaches_stopped_iff can cannot).mpr ⟨state, reaches, rfl⟩,
      (Underway.done_stopped shut).mpr done, rfl, Underway.result_stopped shut⟩

theorem stopsAt_append (cache : Cache) (format : Format) (rest : List (Option String))
    (can : ∀ line ∈ before, readable line) (cannot : readable line = false) :
    StopsAt cache format (before ++ line :: rest) before line := by
  obtain ⟨same, failed, unfailed⟩ := read_stops can cannot rest
  refine ⟨?_, fun limit => ?_, ?_, fun _ _ => comesTo_stopped_iff can cannot⟩
  · rw [run_summary, failed]
  · rw [run_output, run_output, same]
  · rw [run_summary, unfailed]
    exact ⟨_, rfl, by simp only [leftBy, same]⟩

/-- A strict replay fails just where there is a line that cannot be read. It stops at the first of
them, with what the lines before would have come to by themselves. Without such a line it does the same as
a lenient replay, at once or in any schedule of the reader, the loop and the writer. -/
theorem strict_stops (cache : Cache) (format : Format) (log : List (Option String)) :
    ((∃ failure, (run cache { format, strict := true } none log).summary = .error failure) ↔
      ∃ line ∈ log, readable line = false) ∧
    match log.dropWhile readable with
    | [] =>
      (∀ limit, run cache { format, strict := true } limit log = run cache { format } limit log) ∧
      ∀ ending result,
        ComesTo true cache log ending result ↔ ComesTo false cache log ending result
    | line :: _ => StopsAt cache format log (log.takeWhile readable) line := by
  have can : ∀ line ∈ log.takeWhile readable, readable line :=
    List.all_eq_true.mp List.all_takeWhile
  have whole := List.takeWhile_append_dropWhile (p := readable) (l := log)
  cases remaining : log.dropWhile readable with
  | nil =>
    rw [remaining, List.append_nil] at whole
    rw [whole] at can
    obtain ⟨same, unfailed⟩ := read_of_readable can
    refine ⟨⟨fun ⟨failure, fails⟩ => ?_, fun ⟨line, member, cannot⟩ => ?_⟩, fun limit => ?_,
      fun _ _ => comesTo_iff_of_readable can⟩
    · rw [run_summary, same, unfailed] at fails
      cases fails
    · rw [can line member] at cannot
      cases cannot
    · simp only [run, same]
  | cons line rest =>
    have cannot : readable line = false := by
      simpa [remaining] using List.head?_dropWhile_not readable log
    rw [remaining] at whole
    have stops := stopsAt_append cache format rest can cannot
    rw [whole] at stops
    refine ⟨⟨fun _ => ⟨line, ?_, cannot⟩, fun _ => ⟨_, stops.fails⟩⟩, stops⟩
    rw [← whole]
    simp

end GatewayCache.Replay
