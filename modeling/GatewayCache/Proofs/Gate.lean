import GatewayCache.Gate

/-! # Gates settle once

A gate that has opened or closed stays as it is. So whatever is done to the gate of
a guild has no effect when it is done once more.
-/

namespace GatewayCache.Gates

variable {gates : Gates} {handle : Handle} {guild : Snowflake} {outcome : GateState}

theorem settle_of_state_ne (settled : gates.state handle ≠ .pending) :
    gates.settle handle outcome = gates := by
  rw [settle, if_neg settled]

theorem state_settle (waiting : gates.state handle = .pending) :
    (gates.settle handle outcome).state handle = outcome := by
  have made : ∃ gate, gates.made[handle.number]? = some gate := by
    cases found : gates.made[handle.number]? with
    | none => simp [state, gate?, found] at waiting
    | some gate => exact ⟨gate, rfl⟩
  obtain ⟨gate, found⟩ := made
  rw [settle, if_pos waiting]
  simp [state, gate?, found]

theorem settle_settle (final : outcome ≠ .pending) :
    (gates.settle handle outcome).settle handle outcome = gates.settle handle outcome := by
  by_cases waiting : gates.state handle = .pending
  · exact settle_of_state_ne (by rw [state_settle waiting]; exact final)
  · rw [settle_of_state_ne waiting, settle_of_state_ne waiting]

theorem signal_signal : (gates.signal handle).signal handle = gates.signal handle :=
  settle_settle (by decide)

@[simp]
theorem get?_settle : (gates.settle handle outcome).get? guild = gates.get? guild := by
  unfold settle
  split <;> rfl

@[simp]
theorem get?_signal : (gates.signal handle).get? guild = gates.get? guild := get?_settle

theorem getOrCreate_of_get? (found : gates.get? guild = some handle) :
    gates.getOrCreate guild = (handle, gates) := by
  simp [getOrCreate, found]

theorem get?_getOrCreate (gates : Gates) (guild : Snowflake) :
    (gates.getOrCreate guild).2.get? guild = some (gates.getOrCreate guild).1 := by
  unfold getOrCreate
  cases found : gates.get? guild with
  | some handle => exact found
  | none => simp [create, get?]

theorem getOrCreate_getOrCreate (gates : Gates) (guild : Snowflake) :
    (gates.getOrCreate guild).2.getOrCreate guild = gates.getOrCreate guild :=
  getOrCreate_of_get? (get?_getOrCreate gates guild)

/-- The gates with one for a guild, which is opened if the guild is ready. -/
def withGate (gates : Gates) (guild : Snowflake) (ready : Bool) : Gates :=
  let (gate, gates) := gates.getOrCreate guild
  if ready then gates.signal gate else gates

theorem withGate_withGate (gates : Gates) (guild : Snowflake) (ready : Bool) :
    (gates.withGate guild ready).withGate guild ready = gates.withGate guild ready := by
  cases ready with
  | false =>
    simp only [withGate, Bool.false_eq_true, if_false]
    rw [getOrCreate_getOrCreate]
  | true =>
    simp only [withGate, if_true]
    have found : ((gates.getOrCreate guild).2.signal (gates.getOrCreate guild).1).get? guild =
        some (gates.getOrCreate guild).1 := by
      rw [get?_signal, get?_getOrCreate]
    rw [getOrCreate_of_get? found, signal_signal]

theorem signalGuild_signalGuild (gates : Gates) (guild : Snowflake) :
    ((gates.signalGuild guild).2.signalGuild guild).2 = (gates.signalGuild guild).2 := by
  unfold signalGuild
  cases found : gates.get? guild with
  | none => simp [found]
  | some handle => simp [found, signal_signal]

theorem remove_remove (gates : Gates) (guild : Snowflake) :
    (gates.remove guild).remove guild = gates.remove guild := by
  have gone : (gates.remove guild).get? guild = none := by
    unfold remove
    cases found : gates.get? guild with
    | none => exact found
    | some handle => simp [get?]
  rw [remove, gone]

end GatewayCache.Gates
