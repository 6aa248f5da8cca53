import Mathlib.Data.List.Induction
import GatewayCache.Processing.Telling
import GatewayCache.Proofs.Cache.Lifecycle
import GatewayCache.Proofs.Gate.Later
import GatewayCache.Proofs.Processing.Waiting

/-! # What is told, once and in order

An event that is held back is told when its gate opens and never again, for a gate
that has settled stays so. Loops keep one thing in mind for this: with what is still
free to emit, they have told just what their updates tell.
-/

namespace GatewayCache

namespace Cache

open Update

variable {cache : Cache} {dispatch : Dispatch}

theorem applyAll_concat (cache : Cache) (earlier : List Dispatch) (dispatch : Dispatch) :
    cache.applyAll (earlier ++ [dispatch]) = ((cache.applyAll earlier).apply dispatch).2 := by
  simp [applyAll]

theorem heldBack_concat (cache : Cache) (earlier : List Dispatch) (dispatch : Dispatch) :
    cache.heldBack (earlier ++ [dispatch]) =
      cache.heldBack earlier ++ ((cache.applyAll earlier).deferred? dispatch).toList := by
  induction earlier generalizing cache with
  | nil => simp [heldBack, applyAll]
  | cons first rest ih =>
    rw [List.cons_append, heldBack, ih, ← List.append_assoc]
    rfl

theorem perform_later (cache : Cache) (update : Update) :
    cache.gates.Later (cache.perform update).1.gates := by
  rw [perform_gates]
  cases update with
  | guildAvailable | guildPending => exact .withGate _ _ _
  | guildLeft => exact .remove _ _
  | membersListed guild members last =>
    cases last with
    | true => exact .signalGuild _ _
    | false => exact .refl _
  | guildChanged | guildOutage | banAdded | banLifted | emojisReplaced | stickersReplaced
  | webhooksChanged | integrationAdded | integrationChanged | integrationRemoved | roleAdded
  | roleChanged | added | changed | removed | voiceChanged => exact .refl _

theorem apply_later (cache : Cache) (dispatch : Dispatch) :
    cache.gates.Later (cache.apply dispatch).2.gates := by
  rw [apply_eq]
  split
  · exact .refl _
  · split
    · exact .refl _
    · exact perform_later cache _

theorem deferred?_pending (sound : cache.gates.Sound) (dispatch : Dispatch) :
    ∀ deferred ∈ (cache.deferred? dispatch).toList,
      (cache.apply dispatch).2.gates.state deferred.gate = .pending :=
  forall_of_forall₂ (deferred?_backs sound dispatch) fun _ _ backs => backs.holds.pending

theorem deferred?_made (sound : cache.gates.Sound) (dispatch : Dispatch) :
    ∀ deferred ∈ (cache.deferred? dispatch).toList,
      ((cache.apply dispatch).2.gates.gate? deferred.gate).isSome := by
  refine forall_of_forall₂ (deferred?_backs sound dispatch) fun deferred wait backs => ?_
  obtain ⟨state, made, -⟩ :=
    (apply_sound sound dispatch).registered wait.1 deferred.gate backs.holds.registered
  rw [made]
  rfl

theorem heldBack_made (sound : cache.gates.Sound) (dispatches : List Dispatch) :
    ∀ deferred ∈ cache.heldBack dispatches,
      ((cache.applyAll dispatches).gates.gate? deferred.gate).isSome := by
  induction dispatches using List.reverseRecOn with
  | nil => simp [heldBack]
  | append_singleton earlier dispatch ih =>
    intro deferred member
    rw [heldBack_concat, List.mem_append] at member
    rw [applyAll_concat]
    rcases member with before | now
    · exact (apply_later _ dispatch).made (ih deferred before)
    · exact deferred?_made (applyAll_sound sound earlier) dispatch deferred now

theorem emitted_length_le (cache : Cache) (dispatch : Dispatch) :
    (cache.emitted dispatch).length + (cache.deferred? dispatch).toList.length ≤ 2 := by
  have raw : (cache.rawEvents dispatch).length ≤ 1 := by
    unfold rawEvents
    split <;> simp
  rw [emitted, deferred?, apply_eq]
  cases UpdateKind.ofName? dispatch.name with
  | none => exact Nat.le_succ_of_le raw
  | some kind =>
    cases reads : read kind dispatch.data with
    | error error => simp [reads, Except.toOption]
    | ok update =>
      cases reaction : (cache.perform update).2 with
      | emit | defer | silent => simp [reads, reaction, Except.toOption, Outcome.of]; omega

/-- Each update is counted once, as what became of it, and once more if its event is held back. -/
theorem apply_stats (cache : Cache) (dispatch : Dispatch) :
    let after := (cache.apply dispatch).2.stats
    after.processed + after.failed + after.ignored =
        cache.stats.processed + cache.stats.failed + cache.stats.ignored + 1 ∧
      after.deferred = cache.stats.deferred + (cache.deferred? dispatch).toList.length := by
  rw [deferred?, apply_eq]
  cases UpdateKind.ofName? dispatch.name with
  | none => exact ⟨rfl, rfl⟩
  | some kind =>
    cases reads : read kind dispatch.data with
    | error error =>
      simp only [reads]
      exact ⟨by omega, rfl⟩
    | ok update =>
      simp only [reads, perform_stats]
      cases (cache.perform update).2 with
      | emit | silent | defer => exact ⟨by simp only [Stats.counting]; omega, rfl⟩

theorem applyAll_stats (cache : Cache) (dispatches : List Dispatch) :
    let after := (cache.applyAll dispatches).stats
    after.processed + after.failed + after.ignored =
        cache.stats.processed + cache.stats.failed + cache.stats.ignored + dispatches.length ∧
      after.deferred = cache.stats.deferred + (cache.heldBack dispatches).length := by
  induction dispatches generalizing cache with
  | nil => exact ⟨rfl, rfl⟩
  | cons dispatch rest ih =>
    obtain ⟨ended, waiting⟩ := apply_stats cache dispatch
    obtain ⟨all, held⟩ := ih (cache.apply dispatch).2
    rw [heldBack, List.length_append, List.length_cons]
    simp only [applyAll, List.foldl_cons] at all held ⊢
    omega

theorem filter_perm_append {α : Type} {items : List α} {kept first second : α → Prop}
    [DecidablePred kept] [DecidablePred first] [DecidablePred second]
    (apart : ∀ item ∈ items, (kept item ↔ first item ∨ second item) ∧
      ¬ (first item ∧ second item)) :
    (items.filter kept).Perm (items.filter first ++ items.filter second) := by
  have one : (items.filter kept).filter first = items.filter first := by
    rw [List.filter_filter]
    refine List.filter_congr fun item member => ?_
    obtain ⟨either, -⟩ := apart item member
    by_cases here : first item <;> simp [here, either]
  have other : (items.filter kept).filter (fun item => !decide (first item)) =
      items.filter second := by
    rw [List.filter_filter]
    refine List.filter_congr fun item member => ?_
    obtain ⟨either, never⟩ := apart item member
    by_cases here : first item
    · have absent : ¬ second item := fun there => never ⟨here, there⟩
      simp [here, absent]
    · simp [here, either]
  rw [← one, ← other]
  exact (List.filter_append_perm _ (items.filter kept)).symm

theorem state_ready_iff {handle : Handle} (made : (cache.gates.gate? handle).isSome)
    (dispatch : Dispatch) :
    ((cache.apply dispatch).2.gates.state handle = .ready ↔
        cache.gates.state handle = .ready ∨ cache.Opens dispatch handle) ∧
      ¬ (cache.gates.state handle = .ready ∧ cache.Opens dispatch handle) := by
  obtain ⟨gate, found⟩ := Option.isSome_iff_exists.mp made
  have kept := (apply_later cache dispatch).state found
  unfold Opens
  cases before : cache.gates.state handle with
  | pending => simp
  | ready =>
    rw [before] at kept
    simp [kept]
  | closed =>
    rw [before] at kept
    simp [kept]

/-- What has been set free so far are the events held back so far whose gates are open, each once. -/
theorem Told.freed_perm (sound : cache.gates.Sound) {dispatches : List Dispatch}
    {events freed : List Event} (told : cache.Told dispatches events freed) :
    freed.Perm ((cache.applyAll dispatches).gates.free (cache.heldBack dispatches)) := by
  induction told with
  | nil => rfl
  | @snoc earlier events freed now dispatch before all ih =>
    have made := heldBack_made sound earlier
    have sound := applyAll_sound sound earlier
    -- The event that is held back now is not free yet.
    have waiting := Gates.filter_ready_of_pending (deferred?_pending sound dispatch)
    have opened := filter_perm_append fun deferred member =>
      state_ready_iff (made deferred member) dispatch
    rw [applyAll_concat, heldBack_concat, Gates.free, List.filter_append, waiting, List.append_nil]
    refine (ih.append all).trans ?_
    rw [Gates.free, setFree, ← List.map_append]
    exact (opened.map Deferred.event).symm

end Cache

namespace Gates

variable {before after : Gates} {held : List Deferred}

theorem free_append (gates : Gates) (first second : List Deferred) :
    gates.free (first ++ second) = gates.free first ++ gates.free second := by
  rw [free, List.filter_append, List.map_append]
  rfl

theorem free_length_le (gates : Gates) (held : List Deferred) :
    (gates.free held).length ≤ held.length := by
  rw [free, List.length_map]
  exact List.length_filter_le ..

theorem stillPending_later (later : Later before after)
    (made : ∀ deferred ∈ held, (before.gate? deferred.gate).isSome) :
    after.stillPending held = after.stillPending (before.stillPending held) := by
  rw [stillPending, stillPending, stillPending, List.filter_filter]
  refine List.filter_congr fun deferred member => ?_
  obtain ⟨gate, found⟩ := Option.isSome_iff_exists.mp (made deferred member)
  by_cases waits : before.state deferred.gate = .pending
  · simp [waits]
  · simp [waits, later.state found waits]

end Gates

namespace Processing

variable {start : Cache} {state : Processing} {applied : List Dispatch} {told freed : List Event}

/-- With what is free to emit, a loop has told what the updates tell that it applied. -/
structure Tells (start : Cache) (state : Processing) (applied : List Dispatch)
    (told freed : List Event) : Prop where
  cache : state.cache = start.applyAll applied
  /-- The free events may come in any order. -/
  told : ∀ now : List Event, now.Perm (state.cache.gates.free state.pending) →
    start.Told applied (told ++ now) (freed ++ now)
  /-- Every event that is to come is held back. -/
  waiting : state.cache.gates.stillPending state.pending =
    state.cache.gates.stillPending (start.heldBack applied)

theorem tells_ofCache (start : Cache) : Tells start (.ofCache start) [] [] [] where
  cache := rfl
  told now all := by
    rw [List.perm_nil.mp all]
    exact .nil
  waiting := rfl

theorem Tells.told_of_quiet (tells : Tells start state applied told freed) (quiet : state.Quiet) :
    start.Told applied told freed := by
  have nothing := tells.told []
  rw [quiet.free, List.append_nil, List.append_nil] at nothing
  exact nothing (.refl [])

/-- What is free right after an update, if all was quiet before, is what the update has set free. -/
theorem Tells.free_apply (tells : Tells start state applied told freed) (sound : start.gates.Sound)
    (quiet : state.Quiet) (dispatch : Dispatch) :
    (state.apply dispatch).cache.gates.free (state.apply dispatch).pending =
      start.setFree applied dispatch := by
  have sound : state.cache.gates.Sound := tells.cache ▸ Cache.applyAll_sound sound applied
  have waiting := Cache.deferred?_pending sound dispatch
  have held := tells.waiting
  rw [Gates.stillPending_of_pending quiet] at held
  rw [Cache.setFree, ← tells.cache, Gates.free, apply, List.filter_append,
    Gates.filter_ready_of_pending waiting, List.append_nil, held, Gates.stillPending,
    List.filter_filter]
  congr 1
  refine List.filter_congr fun deferred _ => ?_
  rw [← Bool.decide_and, decide_eq_decide]
  exact and_comm

theorem Tells.apply (tells : Tells start state applied told freed) (sound : start.gates.Sound)
    (quiet : state.Quiet) (dispatch : Dispatch) :
    Tells start (state.apply dispatch) (applied ++ [dispatch])
      (told ++ state.cache.emitted dispatch) freed where
  cache := by rw [Cache.applyAll_concat, ← tells.cache, Processing.apply]
  told now all := by
    rw [tells.free_apply sound quiet dispatch] at all
    have more := (tells.told_of_quiet quiet).snoc dispatch all
    rwa [← tells.cache, ← List.append_assoc] at more
  waiting := by
    have later := Cache.apply_later state.cache dispatch
    have made := Cache.heldBack_made sound applied
    rw [← tells.cache] at made
    rw [Cache.heldBack_concat, ← tells.cache, Processing.apply, Gates.stillPending_append,
      Gates.stillPending_append, Gates.stillPending_later later made, ← tells.waiting,
      Gates.stillPending_of_pending quiet]

theorem Tells.letGo {earlier later : List Deferred} {deferred : Deferred}
    (tells : Tells start state applied told freed)
    (held : state.pending = earlier ++ deferred :: later)
    (settled : state.cache.gates.state deferred.gate ≠ .pending) :
    Tells start { state with pending := earlier ++ later } applied
      (told ++ state.cache.gates.free [deferred]) (freed ++ state.cache.gates.free [deferred]) where
  cache := tells.cache
  told now all := by
    rw [List.append_assoc, List.append_assoc]
    refine tells.told _ ?_
    rw [held, List.append_cons, Gates.free_append, Gates.free_append, List.append_assoc]
    rw [Gates.free_append] at all
    exact (all.append_left _).trans (List.perm_append_comm_assoc ..)
  waiting := by
    rw [← tells.waiting, held]
    simp [Gates.stillPending, settled]

theorem Tells.release (tells : Tells start state applied told freed)
    (all : state.release.1.Perm (state.cache.gates.free state.pending)) :
    Tells start state.release.2 applied (told ++ state.release.1) (freed ++ state.release.1) ∧
      state.release.2.Quiet := by
  have quiet : state.release.2.Quiet := fun deferred member =>
    of_decide_eq_true (List.mem_filter.mp member).2
  refine ⟨⟨tells.cache, fun now rest => ?_, ?_⟩, quiet⟩
  · rw [quiet.free, List.perm_nil] at rest
    rw [rest, List.append_nil, List.append_nil]
    exact tells.told _ all
  · exact (Gates.stillPending_of_pending quiet).trans tells.waiting

theorem Quiet.released_apply (quiet : state.Quiet) (sound : state.cache.gates.Sound)
    (dispatch : Dispatch) :
    (state.apply dispatch).release.1 =
      (state.apply dispatch).cache.gates.free (state.apply dispatch).pending := by
  obtain ⟨guild, outcome, step⟩ := Cache.apply_step state.cache dispatch
  have waiting := Cache.deferred?_pending sound dispatch
  exact Gates.released_eq (step.sound sound) step.settled (step.fresh sound quiet waiting)

theorem Tells.advanceAll (tells : Tells start state applied told freed) (sound : start.gates.Sound)
    (quiet : state.Quiet) (dispatches : List Dispatch) :
    ∃ more, Tells start (state.advanceAll dispatches).2 (applied ++ dispatches)
        (told ++ (state.advanceAll dispatches).1) (freed ++ more) ∧
      (state.advanceAll dispatches).2.Quiet := by
  induction dispatches generalizing state applied told freed with
  | nil => exact ⟨[], by simpa [Processing.advanceAll] using tells, quiet⟩
  | cons dispatch rest ih =>
    have still : state.cache.gates.Sound := tells.cache ▸ Cache.applyAll_sound sound applied
    have all := quiet.released_apply still dispatch
    obtain ⟨next, settled⟩ := (tells.apply sound quiet dispatch).release (.of_eq all)
    obtain ⟨more, last, silent⟩ := ih next settled
    simp only [Processing.advanceAll, advance_eq_release]
    refine ⟨(state.apply dispatch).release.1 ++ more, ?_, silent⟩
    simpa only [List.append_assoc, List.cons_append, List.nil_append] using last

end Processing

end GatewayCache
