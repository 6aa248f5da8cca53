import Mathlib.Data.List.Forall2
import GatewayCache.Processing.Telling
import GatewayCache.Proofs.Cache.Leaving
import GatewayCache.Proofs.Cache.Readiness
import GatewayCache.Proofs.Processing.Turn

/-! # Events held back

The loop knows only gates, and a run is told only in turns. Still the events that
the loop holds back are just the waits that have begun and not ended in the turns so
far, and so it emits what the turns say.
-/

namespace GatewayCache

/-- After a step, the events to let go are just those whose gates are open now: their gates had not
settled before, and at most one has since. -/
theorem Gates.released_eq {before after : Gates} {pending : List Deferred} (sound : after.Sound)
    (settled : ∃ more : Option Handle, after.settled = before.settled ++ more.toList)
    (fresh : ∀ deferred ∈ pending, deferred.gate ∉ before.settled) :
    after.released pending =
      (pending.filter (fun deferred => after.state deferred.gate = .ready)).map Deferred.event := by
  obtain ⟨more, settled⟩ := settled
  -- No event that is still held back has a gate from before among its own.
  have old : before.settled.flatMap
      (fun handle => pending.filter (fun deferred => deferred.gate = handle)) = [] := by
    simp only [List.flatMap_eq_nil_iff, List.filter_eq_nil_iff, decide_eq_true_eq]
    rintro handle noted deferred member rfl
    exact fresh deferred member noted
  have ended : after.ended pending =
      more.toList.flatMap (fun handle => pending.filter (fun deferred => deferred.gate = handle)) := by
    rw [Gates.ended, settled, List.flatMap_append, old, List.nil_append]
  have opened : ∀ deferred ∈ pending, after.state deferred.gate = .ready →
      deferred.gate ∈ more.toList := by
    intro deferred member ready
    have noted := sound.opened deferred.gate ready
    rw [settled, List.mem_append] at noted
    exact noted.resolve_left (fresh deferred member)
  rw [Gates.released, Gates.free, ended]
  congr 1
  cases more with
  | none =>
    symm
    rw [Option.toList_none, List.flatMap_nil, List.filter_nil, List.filter_eq_nil_iff]
    intro deferred member ready
    cases opened deferred member (of_decide_eq_true ready)
  | some handle =>
    rw [Option.toList_some, List.flatMap_singleton, List.filter_filter]
    refine List.filter_congr fun deferred member => ?_
    rw [Bool.and_eq_left_iff_imp, decide_eq_true_iff, decide_eq_true_iff]
    intro ready
    simpa using opened deferred member ready

theorem Gates.Step.fresh {before after : Gates} {guild : Snowflake} {outcome : GateState}
    {old new : List Deferred} (step : Step before after guild outcome) (sound : before.Sound)
    (waited : ∀ deferred ∈ old, before.state deferred.gate = .pending)
    (waiting : ∀ deferred ∈ new, after.state deferred.gate = .pending) :
    ∀ deferred ∈ old ++ new, deferred.gate ∉ before.settled := by
  intro deferred member noted
  rcases List.mem_append.mp member with earlier | now
  · exact sound.state_of_mem_settled noted (waited deferred earlier)
  · obtain ⟨more, settled⟩ := step.settled
    have later := settled ▸ List.mem_append_left more.toList noted
    exact (step.sound sound).state_of_mem_settled later (waiting deferred now)

theorem Gates.filter_ready_of_pending {gates : Gates} {held : List Deferred}
    (waiting : ∀ deferred ∈ held, gates.state deferred.gate = .pending) :
    held.filter (fun deferred => gates.state deferred.gate = .ready) = [] := by
  rw [List.filter_eq_nil_iff]
  intro deferred member
  simp [waiting deferred member]

theorem Gates.stillPending_append (gates : Gates) (first second : List Deferred) :
    gates.stillPending (first ++ second) = gates.stillPending first ++ gates.stillPending second :=
  List.filter_append ..

theorem Gates.stillPending_of_pending {gates : Gates} {held : List Deferred}
    (waiting : ∀ deferred ∈ held, gates.state deferred.gate = .pending) :
    gates.stillPending held = held := by
  rw [Gates.stillPending, List.filter_eq_self]
  exact fun deferred member => decide_eq_true (waiting deferred member)

theorem forall₂_filter {α β : Type} {related kept : α → β → Prop} {first : List α}
    {second : List β} {keep : α → Bool} {stay : β → Bool} (all : List.Forall₂ related first second)
    (agree : ∀ a b, related a b → keep a = stay b)
    (keeps : ∀ a b, related a b → stay b → kept a b) :
    List.Forall₂ kept (first.filter keep) (second.filter stay) := by
  induction all with
  | nil => exact .nil
  | @cons a b _ _ here _ ih =>
    rw [List.filter_cons, List.filter_cons, agree a b here]
    cases stays : stay b with
    | true => exact .cons (keeps a b here stays) ih
    | false => exact ih

theorem forall_of_forall₂ {α β : Type} {related : α → β → Prop} {property : α → Prop}
    {first : List α} {second : List β} (all : List.Forall₂ related first second)
    (each : ∀ a b, related a b → property a) : ∀ a ∈ first, property a :=
  ((List.forall₂_and_left (p := property) first second).mp
    (all.imp fun a b here => ⟨each a b here, here⟩)).1

namespace Cache

variable {cache : Cache} {deferred : Deferred} {wait : Snowflake × Event}

/-- An event that is held back is that of a wait, at the gate of its guild. -/
structure Backs (cache : Cache) (deferred : Deferred) (wait : Snowflake × Event) : Prop where
  holds : cache.Holds wait.1 deferred
  event : deferred.event = wait.2

/-- What becomes of a wait in a turn. -/
structure Fate (after : Cache) (next : Turn) (deferred : Deferred) (wait : Snowflake × Event) :
    Prop where
  /-- Its gate opens if its guild is completed. -/
  ready : after.gates.state deferred.gate = .ready ↔ next.Completes wait.1
  /-- Its gate settles if the wait ends. -/
  pending : after.gates.state deferred.gate = .pending ↔ ¬ next.Ends wait.1
  /-- Otherwise it goes on. -/
  backs : ¬ next.Ends wait.1 → after.Backs deferred wait
  event : deferred.event = wait.2

theorem Backs.fate (backs : cache.Backs deferred wait) (sound : cache.gates.Sound)
    (dispatch : Dispatch) :
    Fate (cache.apply dispatch).2 (cache.turn dispatch) deferred wait := by
  obtain ⟨guild, event⟩ := wait
  obtain ⟨⟨fetching, registered, pending⟩, sameEvent⟩ := backs
  obtain ⟨owner, outcome, moves⟩ := apply_moves fetching dispatch
  have goes : (cache.apply dispatch).2.config.fetchMembers := by rwa [apply_config]
  have comes := moves.state sound registered
  rw [if_pos pending] at comes
  refine ⟨by rw [comes, Turn.verdict_eq_ready], by rw [comes, Turn.verdict_eq_pending], ?_, sameEvent⟩
  intro goesOn
  have stays : (cache.turn dispatch).left ≠ some guild := fun left => goesOn (.inr left)
  rw [Turn.verdict_eq_pending.mpr goesOn] at comes
  exact ⟨⟨goes, moves.registered sound registered stays, comes⟩, sameEvent⟩

theorem turn_events (cache : Cache) (dispatch : Dispatch) :
    (cache.turn dispatch).events = cache.emitted dispatch := by
  cases applied : cache.apply dispatch with
  | mk result after => cases result <;> simp [turn, emitted, applied, Except.toOption]

theorem deferred?_backs (sound : cache.gates.Sound) (dispatch : Dispatch) :
    List.Forall₂ (cache.apply dispatch).2.Backs (cache.deferred? dispatch).toList
      (cache.turn dispatch).held.toList := by
  cases applied : cache.apply dispatch with
  | mk result after =>
    cases result with
    | error error => simp [turn, deferred?, applied, Except.toOption]
    | ok outcome =>
      cases held : outcome.deferred with
      | none => simp [turn, deferred?, applied, held, Except.toOption]
      | some deferred =>
        obtain ⟨guild, waits, holds, -⟩ := apply_held sound applied held
        have now : cache.deferred? dispatch = some deferred := by
          simp [deferred?, applied, held, Except.toOption]
        rw [waits, now]
        exact .cons ⟨holds, rfl⟩ .nil

end Cache

namespace Processing

variable {state : Processing} {turns : List Turn}

theorem quiet_ofCache (cache : Cache) : (ofCache cache).Quiet := by
  intro deferred member
  cases member

theorem Quiet.free (quiet : state.Quiet) : state.cache.gates.free state.pending = [] := by
  rw [Gates.free, Gates.filter_ready_of_pending quiet, List.map_nil]

theorem Quiet.release (quiet : state.Quiet) : state.release = ([], state) := by
  have nothing : state.cache.gates.released state.pending = [] := by
    rw [Gates.released, Gates.free, Gates.filter_ready_of_pending, List.map_nil]
    intro deferred ended
    simp only [Gates.ended, List.mem_flatMap, List.mem_filter] at ended
    obtain ⟨_, -, member, -⟩ := ended
    exact quiet deferred member
  rw [Processing.release, nothing, Gates.stillPending_of_pending quiet]

/-- The events that are held back are the waits that go on after some turns. -/
structure Tracks (state : Processing) (turns : List Turn) : Prop where
  sound : state.cache.gates.Sound
  /-- One event is held back for each wait, in their order. -/
  pending : List.Forall₂ state.cache.Backs state.pending (Turn.waiting turns)

theorem Tracks.release (tracks : state.Tracks turns) (dispatch : Dispatch) :
    let result := (state.apply dispatch).release
    result.1 = ((Turn.waiting turns).filter
        (fun wait => (state.cache.turn dispatch).Completes wait.1)).map Prod.snd ∧
      result.2.Tracks (turns ++ [state.cache.turn dispatch]) := by
  intro result
  obtain ⟨guild, outcome, step⟩ := Cache.apply_step state.cache dispatch
  have still := step.sound tracks.sound
  have fates := tracks.pending.imp fun deferred wait backs => backs.fate tracks.sound dispatch
  -- What is held back now waits for a gate that is still pending, so it is neither let go in the same
  -- turn nor was its gate settled earlier.
  have held := Cache.deferred?_backs tracks.sound dispatch
  have waiting := forall_of_forall₂ held fun deferred wait backs => backs.holds.pending
  have waited := forall_of_forall₂ tracks.pending fun _ _ backs => backs.holds.pending
  have fresh := step.fresh tracks.sound waited waiting
  refine ⟨?_, still, ?_⟩
  · have freed : List.Forall₂ (fun deferred wait => deferred.event = wait.2)
        (state.pending.filter (fun deferred =>
          (state.cache.apply dispatch).2.gates.state deferred.gate = .ready))
        ((Turn.waiting turns).filter (fun wait => (state.cache.turn dispatch).Completes wait.1)) :=
      forall₂_filter fates (fun _ _ fate => decide_eq_decide.mpr fate.ready)
        fun _ _ fate _ => fate.event
    simp only [result, apply, Processing.release, Gates.released_eq still step.settled fresh]
    rw [List.filter_append, Gates.filter_ready_of_pending waiting, List.append_nil,
      ← List.forall₂_eq_eq_eq, List.forall₂_map_left_iff, List.forall₂_map_right_iff]
    exact freed
  · simp only [result, apply, Processing.release, Gates.stillPending_append, Turn.waiting_append]
    rw [Gates.stillPending_of_pending waiting]
    refine List.rel_append ?_ held
    exact forall₂_filter fates (fun deferred wait fate => decide_eq_decide.mpr fate.pending)
      fun deferred wait fate goesOn => fate.backs (of_decide_eq_true goesOn)

theorem advance_eq_release (state : Processing) (dispatch : Dispatch) :
    state.advance dispatch = (state.cache.emitted dispatch ++ (state.apply dispatch).release.1,
      (state.apply dispatch).release.2) := by
  cases applied : state.cache.apply dispatch with
  | mk result after =>
    cases result with
    | error error => simp [advance, apply, Cache.emitted, Cache.deferred?, applied, Except.toOption]
    | ok outcome => simp [advance, apply, Cache.emitted, Cache.deferred?, applied, Except.toOption]

/-- The loop emits what a turn adds to the output, and tracks the turns after it. -/
theorem Tracks.advance (tracks : state.Tracks turns) (dispatch : Dispatch) :
    Turn.output (turns ++ [state.cache.turn dispatch]) =
        Turn.output turns ++ (state.advance dispatch).1 ∧
      (state.advance dispatch).2.cache = (state.cache.apply dispatch).2 ∧
      (state.advance dispatch).2.Tracks (turns ++ [state.cache.turn dispatch]) := by
  obtain ⟨freed, after⟩ := tracks.release dispatch
  rw [advance_eq_release, Turn.output_append, ← freed, Cache.turn_events]
  exact ⟨rfl, rfl, after⟩

theorem Tracks.advanceAll (tracks : state.Tracks turns) (dispatches : List Dispatch) :
    Turn.output (turns ++ state.cache.turns dispatches) =
        Turn.output turns ++ (state.advanceAll dispatches).1 ∧
      (state.advanceAll dispatches).2.cache = state.cache.applyAll dispatches ∧
      (state.advanceAll dispatches).2.Tracks (turns ++ state.cache.turns dispatches) := by
  induction dispatches generalizing state turns with
  | nil => simpa [Cache.turns, Processing.advanceAll, Cache.applyAll] using tracks
  | cons dispatch rest ih =>
    obtain ⟨emitted, cache, after⟩ := tracks.advance dispatch
    obtain ⟨more, final, last⟩ := ih after
    rw [cache, List.append_assoc] at more last
    rw [cache] at final
    rw [emitted, List.append_assoc] at more
    exact ⟨more, final, last⟩

/-- Between updates there is nothing to let go of. -/
theorem Tracks.release_self (tracks : state.Tracks turns) : state.release = ([], state) :=
  Quiet.release (forall_of_forall₂ tracks.pending fun _ _ backs => backs.holds.pending)

end Processing

end GatewayCache
