import GatewayCache.Proofs.Gate.Register

/-! # Gates later on

Whatever is done to the gates, those that were made stay, of the same guild, and one
that has opened or closed stays as it is.
-/

namespace GatewayCache.Gates

variable {gates before between after : Gates} {handle : Handle} {guild : Snowflake}
  {outcome : GateState} {gate : Gate}

/-- Gates after those before, with whatever was done to them. -/
def Later (before after : Gates) : Prop :=
  ∀ handle gate, before.gate? handle = some gate →
    ∃ state, after.gate? handle = some ⟨gate.guild, state⟩ ∧
      (gate.state ≠ .pending → state = gate.state)

namespace Later

theorem refl (gates : Gates) : Later gates gates :=
  fun _ gate found => ⟨gate.state, found, fun _ => rfl⟩

theorem trans (first : Later before between) (second : Later between after) :
    Later before after := by
  intro handle gate found
  obtain ⟨state, made, kept⟩ := first handle gate found
  obtain ⟨final, still, keeps⟩ := second handle _ made
  refine ⟨final, still, fun settled => ?_⟩
  rw [keeps (by rwa [kept settled]), kept settled]

theorem settle (gates : Gates) (handle : Handle) (outcome : GateState) :
    Later gates (gates.settle handle outcome) := by
  intro other gate found
  by_cases same : other = handle
  · subst same
    by_cases waiting : gate.state = .pending
    · exact ⟨outcome, gate?_settle_self (by rw [found, ← waiting]), fun settled => absurd waiting settled⟩
    · have settled : gates.state other ≠ .pending := by rwa [state_of_gate? found]
      rw [settle_of_state_ne settled]
      exact ⟨gate.state, found, fun _ => rfl⟩
  · exact ⟨gate.state, (gate?_settle_of_ne same).trans found, fun _ => rfl⟩

theorem getOrCreate (gates : Gates) (guild : Snowflake) : Later gates (gates.getOrCreate guild).2 :=
  fun _ gate found => ⟨gate.state, gate?_getOrCreate found guild, fun _ => rfl⟩

theorem withGate (gates : Gates) (guild : Snowflake) (ready : Bool) :
    Later gates (gates.withGate guild ready) := by
  cases ready with
  | false => exact getOrCreate gates guild
  | true => exact (getOrCreate gates guild).trans (settle _ _ _)

theorem signalGuild (gates : Gates) (guild : Snowflake) : Later gates (gates.signalGuild guild).2 := by
  unfold Gates.signalGuild
  cases gates.get? guild with
  | none => exact refl gates
  | some handle => exact settle gates handle .ready

theorem remove (gates : Gates) (guild : Snowflake) : Later gates (gates.remove guild) := by
  cases found : gates.get? guild with
  | none =>
    rw [Gates.remove, found]
    exact refl gates
  | some handle =>
    rw [remove_eq found]
    -- Taking a gate off the register does nothing to the gate itself.
    have unregistered : Later gates (gates.without guild) := refl gates
    exact unregistered.trans (settle _ _ _)

theorem state (later : Later before after) (found : before.gate? handle = some gate)
    (settled : before.state handle ≠ .pending) : after.state handle = before.state handle := by
  obtain ⟨state, made, kept⟩ := later handle gate found
  rw [state_of_gate? found] at settled ⊢
  rw [state_of_gate? made, kept settled]

theorem made (later : Later before after) (found : (before.gate? handle).isSome) :
    (after.gate? handle).isSome := by
  obtain ⟨gate, found⟩ := Option.isSome_iff_exists.mp found
  obtain ⟨state, made, -⟩ := later handle gate found
  rw [made]
  rfl

end Later

end GatewayCache.Gates
