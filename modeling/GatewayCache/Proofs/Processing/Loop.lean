import GatewayCache.Proofs.Gate.Reach
import GatewayCache.Proofs.Processing.Waiting

/-! # Loops emit what the turns say

However updates are sent, applied and cut short, a loop emits the output of the
turns that it has applied, and nothing once it has ended or was told to stop.
-/

namespace GatewayCache

namespace Cache

theorem turns_append (cache : Cache) (first second : List Dispatch) :
    cache.turns (first ++ second) = cache.turns first ++ (cache.applyAll first).turns second := by
  induction first generalizing cache with
  | nil => rfl
  | cons dispatch rest ih =>
    simp only [List.cons_append, turns, ih]
    rfl

/-- Only events that welcome a guild are ever held back, and they wait for that guild. -/
theorem welcomes_of_held {cache : Cache} (sound : cache.gates.Sound) (dispatches : List Dispatch) :
    ∀ turn ∈ cache.turns dispatches, ∀ guild event, turn.held = some (guild, event) →
      event.Welcomes guild := by
  induction dispatches generalizing cache with
  | nil => simp [turns]
  | cons dispatch rest ih =>
    intro turn member guild event held
    rcases List.mem_cons.mp member with rfl | later
    · cases applied : cache.apply dispatch with
      | mk result after =>
        cases result with
        | error error => simp [turn, applied] at held
        | ok outcome =>
          cases waiting : outcome.deferred with
          | none => simp [turn, applied, waiting] at held
          | some deferred =>
            obtain ⟨owner, waits, -, welcomes⟩ := apply_held sound applied waiting
            rw [waits] at held
            cases held
            exact welcomes
    · exact ih (apply_sound sound dispatch) turn later guild event held

end Cache

namespace Gates

theorem not_ready_of_closeAll {gates : Gates} {handle : Handle}
    (shut : gates.state handle ≠ .ready) : gates.closeAll.state handle ≠ .ready := by
  cases made : gates.gate? handle with
  | some gate =>
    rw [state_of_gate? made] at shut
    rw [state_of_gate? (gate?_closeAll made)]
    dsimp only
    split
    · decide
    · exact shut
  | none =>
    have still : gates.closeAll.gate? handle = none := by
      rw [gate?, List.getElem?_eq_none_iff, length_closeAll]
      exact List.getElem?_eq_none_iff.mp made
    rw [state, still]
    decide

end Gates

namespace Loop

variable {loop : Loop}

/-- A loop that emits nothing any more: it has ended, or is to stop while no gate that is waited for has
opened. -/
def Idle (loop : Loop) : Prop :=
  loop.finished = true ∨ loop.stopped = true ∧
    ∀ deferred ∈ loop.state.pending, loop.state.cache.gates.state deferred.gate ≠ .ready

theorem lastEvents_eq_nil
    (shut : ∀ deferred ∈ loop.state.pending, loop.state.cache.gates.state deferred.gate ≠ .ready) :
    loop.lastEvents = [] := by
  rw [lastEvents, Gates.free, List.map_eq_nil_iff, List.filter_eq_nil_iff]
  intro deferred member ready
  have ended := List.mem_of_mem_take member
  simp only [Gates.ended, List.mem_flatMap, List.mem_filter] at ended
  obtain ⟨_, -, held, -⟩ := ended
  exact shut deferred held (of_decide_eq_true ready)

theorem Idle.move (idle : loop.Idle) (move : Move) :
    (loop.move move).1 = [] ∧ loop.appliedBy move = [] ∧ (loop.move move).2.Idle := by
  cases move with
  | send dispatch =>
    refine ⟨rfl, rfl, ?_⟩
    simp only [Loop.move, send]
    split <;> exact idle
  | close => exact ⟨rfl, rfl, idle⟩
  | shutdown =>
    refine ⟨rfl, rfl, ?_⟩
    rcases idle with finished | ⟨-, shut⟩
    · exact .inl finished
    · exact .inr ⟨rfl, fun deferred member => Gates.not_ready_of_closeAll (shut deferred member)⟩
  | settle =>
    rcases idle with finished | ⟨stopped, shut⟩
    · have left : loop.Idle := .inl finished
      simpa [Loop.move, settle, appliedBy, finished] using left
    · by_cases finished : loop.finished
      · have left : loop.Idle := .inl finished
        simpa [Loop.move, settle, appliedBy, finished] using left
      · have ended : loop.finish.Idle := .inl rfl
        simpa [Loop.move, settle, appliedBy, finished, stopped, lastEvents_eq_nil shut] using ended

theorem Idle.play (idle : loop.Idle) (moves : List Move) :
    (loop.play moves).1 = [] ∧ loop.applied moves = [] := by
  induction moves generalizing loop with
  | nil => exact ⟨rfl, rfl⟩
  | cons move rest ih =>
    obtain ⟨silent, unapplied, still⟩ := idle.move move
    obtain ⟨later, more⟩ := ih still
    simp [Loop.play, applied, silent, unapplied, later, more]

/-- A loop that has not ended and was not told to stop, and tracks some turns. -/
structure Runs (loop : Loop) (turns : List Turn) : Prop where
  goesOn : loop.finished = false
  runs : loop.stopped = false
  tracks : loop.state.Tracks turns

/-- One move emits what the turns of the updates that it applies add to the output. After it the loop
is idle, or goes on where those updates led. -/
theorem Runs.move {turns : List Turn} (runs : loop.Runs turns) (move : Move) :
    let more := loop.state.cache.turns (loop.appliedBy move)
    Turn.output (turns ++ more) = Turn.output turns ++ (loop.move move).1 ∧
      ((loop.move move).2.Idle ∨ (loop.move move).2.Runs (turns ++ more) ∧
        (loop.move move).2.state.cache = loop.state.cache.applyAll (loop.appliedBy move)) := by
  intro more
  obtain ⟨goesOn, running, tracks⟩ := runs
  cases move with
  | send dispatch =>
    refine ⟨by simp [more, appliedBy, Loop.move, Cache.turns], .inr ?_⟩
    simp only [more, appliedBy, Loop.move, Cache.turns, List.append_nil, send]
    split <;> exact ⟨⟨goesOn, running, tracks⟩, rfl⟩
  | close =>
    refine ⟨by simp [more, appliedBy, Loop.move, Cache.turns], .inr ?_⟩
    simp only [more, appliedBy, Loop.move, Cache.turns, List.append_nil]
    exact ⟨⟨goesOn, running, tracks⟩, rfl⟩
  | shutdown =>
    refine ⟨by simp [more, appliedBy, Loop.move, Cache.turns], .inl (.inr ⟨rfl, ?_⟩)⟩
    intro deferred member
    refine Gates.not_ready_of_closeAll ?_
    have waiting := forall_of_forall₂ tracks.pending (fun _ _ backs => backs.holds.pending) _ member
    simp [waiting]
  | settle =>
    obtain ⟨emitted, cache, after⟩ := tracks.advanceAll loop.queue
    have queued : loop.appliedBy .settle = loop.queue := by simp [appliedBy, goesOn, running]
    simp only [more, queued, Loop.move, settle, goesOn, running, tracks.release_self,
      Bool.false_eq_true, if_false, List.nil_append]
    refine ⟨emitted, ?_⟩
    by_cases stays : loop.isOpen
    · rw [if_pos stays]
      exact .inr ⟨⟨rfl, rfl, after⟩, cache⟩
    · rw [if_neg stays]
      exact .inl (.inl rfl)

theorem Runs.play {turns : List Turn} (runs : loop.Runs turns) (moves : List Move) :
    Turn.output (turns ++ loop.state.cache.turns (loop.applied moves)) =
      Turn.output turns ++ (loop.play moves).1 := by
  induction moves generalizing loop turns with
  | nil => simp [applied, Loop.play, Cache.turns]
  | cons move rest ih =>
    obtain ⟨emitted, falls⟩ := runs.move move
    rw [applied, Cache.turns_append, ← List.append_assoc]
    -- Once the loop is idle the rest of the moves adds neither updates nor events.
    rcases falls with idle | ⟨still, cache⟩
    · obtain ⟨silent, unapplied⟩ := idle.play rest
      simp only [unapplied, Cache.turns, List.append_nil, emitted, Loop.play, silent]
    · have later := ih still
      rw [cache] at later
      rw [later, emitted, List.append_assoc]
      rfl

end Loop

/-- A loop emits just what the turns of the updates that it has applied say: every event that is held
back welcomes the guild that it waits for, and comes out right after the events of the first later
update that completes that guild, at most once, and never if the guild is left before or the run ends
first. -/
theorem Loop.play_output (config : Config) (store : Store) (moves : List Loop.Move) :
    let cache := Cache.ofStore config store
    let loop := Loop.ofCache cache
    let turns := cache.turns (loop.applied moves)
    (loop.play moves).1 = Turn.output turns ∧
      (∀ turn ∈ turns, ∀ guild event, turn.held = some (guild, event) → event.Welcomes guild) ∧
      ∀ guild earlier now again, Turn.Releases turns guild earlier now →
        Turn.Releases turns guild earlier again → now = again := by
  intro cache loop turns
  have runs : loop.Runs [] := ⟨rfl, rfl, Gates.sound_empty, .nil⟩
  refine ⟨(runs.play moves).symm, ?_, ?_⟩
  · exact Cache.welcomes_of_held Gates.sound_empty (loop.applied moves)
  -- Of two turns that let go of one wait, the sooner would have ended it for the later.
  · rintro guild earlier now again ⟨before, ⟨turn, here, completes⟩, first⟩
      ⟨before', ⟨turn', here', completes'⟩, first'⟩
    by_contra apart
    rcases Nat.lt_or_gt_of_ne apart with sooner | later
    · exact first' now sooner before turn here (.inl completes)
    · exact first again later before' turn' here' (.inl completes')

end GatewayCache
