import GatewayCache.Gate.Gatehouse
import GatewayCache.Proofs.Gate.Reach

/-! # Gates are one-shot

Whatever callers do, through the register or by handle, a gate leaves its pending state at
most once, and every wait for it ends the way of the first act that reached it. A gate that
is off the register is out of its reach for good: who asks for the guild again is given
another one.
-/

namespace GatewayCache

open Gates (Later)

namespace Waiter

variable {before after gates : Gates} {waiter : Waiter} {gate : Gate}

/-- What a wait that is over has come to is the state of its gate. -/
def Told (gates : Gates) (waiter : Waiter) : Prop :=
  ∃ gate, gates.gate? waiter.gate = some gate ∧
    ∀ outcome, waiter.outcome = some outcome → outcome ≠ .pending ∧ gate.state = outcome

theorem Told.later (told : waiter.Told before) (later : Later before after) : waiter.Told after := by
  obtain ⟨gate, found, ended⟩ := told
  obtain ⟨state, still, kept⟩ := later waiter.gate gate found
  refine ⟨_, still, fun outcome came => ?_⟩
  obtain ⟨final, same⟩ := ended outcome came
  exact ⟨final, (kept (same ▸ final)).trans same⟩

theorem Told.outcome_poll (told : waiter.Told gates) (found : gates.gate? waiter.gate = some gate) :
    (waiter.poll gates).outcome = if gate.state = .pending then none else some gate.state := by
  obtain ⟨own, same, ended⟩ := told
  obtain rfl : gate = own := Option.some.inj (found.symm.trans same)
  unfold poll
  rw [Gates.state_of_gate? found]
  cases came : waiter.outcome with
  | none => by_cases waiting : gate.state = .pending <;> simp [waiting, came]
  | some outcome =>
    obtain ⟨final, rfl⟩ := ended outcome came
    simp [came, final]

theorem gate_poll (gates : Gates) (waiter : Waiter) : (waiter.poll gates).gate = waiter.gate := by
  unfold poll
  split <;> rfl

theorem Told.poll (told : waiter.Told gates) : (waiter.poll gates).Told gates := by
  have ⟨gate, found, _⟩ := told
  refine ⟨gate, by rw [gate_poll, found], fun outcome came => ?_⟩
  rw [told.outcome_poll found] at came
  split at came
  · cases came
  · next final =>
    obtain rfl := Option.some.inj came
    exact ⟨final, rfl⟩

end Waiter

namespace Gatehouse

variable {house : Gatehouse} {guild : Snowflake} {handle : Handle} {tenure : Tenure}
  {state : GateState}

theorem run_append (house : Gatehouse) (acts more : List Act) :
    house.run (acts ++ more) = (house.run acts).run more :=
  List.foldl_append ..

theorem later_act (house : Gatehouse) (act : Act) : Later house.gates (house.act act).gates := by
  cases act with
  | getOrCreate guild => exact .getOrCreate house.gates guild
  | signalGuild guild => exact .signalGuild house.gates guild
  | remove guild => exact .remove house.gates guild
  | closeAll => exact .closeAll house.gates
  | discard => exact .foldl_close house.gates _
  | signal handle | close handle =>
    simp only [Gatehouse.act]
    split
    · exact .settle house.gates handle _
    · exact .refl house.gates
  | drop handle =>
    simp only [Gatehouse.act]
    split
    · dsimp only
      split
      · exact .refl house.gates
      · exact .abandon house.gates handle
    · exact .refl house.gates
  | wait handle =>
    simp only [Gatehouse.act]
    split <;> exact .refl house.gates
  | get guild | poll waiter => exact .refl house.gates

/-- The register changes only where it is asked to. -/
theorem get?_act (house : Gatehouse) (act : Act) (other : Snowflake) :
    (house.act act).gates.get? other =
      match act with
      | .getOrCreate guild =>
        if other = guild then some (house.gates.getOrCreate guild).1 else house.gates.get? other
      | .remove guild => if other = guild then none else house.gates.get? other
      | .closeAll | .discard => none
      | _ => house.gates.get? other := by
  cases act with
  | getOrCreate guild =>
    by_cases here : other = guild
    · subst here
      simpa [Gatehouse.act] using Gates.get?_getOrCreate house.gates other
    · simpa [Gatehouse.act, here] using Gates.get?_getOrCreate_of_ne here
  | signalGuild guild => exact Gates.get?_signalGuild house.gates guild other
  | remove guild => exact Gates.get?_remove house.gates guild other
  | closeAll => exact Gates.get?_closeAll house.gates other
  | discard => simp [Gatehouse.act, Gates.get?]
  | signal handle | close handle =>
    simp only [Gatehouse.act]
    split
    · exact Gates.get?_settle
    · rfl
  | drop handle =>
    simp only [Gatehouse.act, Gates.abandon]
    split
    · dsimp only
      split
      · rfl
      · split
        · rfl
        · exact Gates.get?_settle
    · rfl
  | wait handle =>
    simp only [Gatehouse.act]
    split <;> rfl
  | get guild | poll waiter => rfl

theorem length_act (house : Gatehouse) (act : Act) :
    (house.act act).gates.made.length =
      match act with
      | .getOrCreate guild => (house.gates.getOrCreate guild).2.made.length
      | _ => house.gates.made.length := by
  cases act with
  | getOrCreate | get | poll => rfl
  | signalGuild => exact Gates.length_signalGuild
  | remove => exact Gates.length_remove
  | closeAll => exact Gates.length_closeAll
  | discard => exact Gates.length_foldl_close _
  | signal | close =>
    simp only [Gatehouse.act]
    split
    · exact Gates.length_settle
    · rfl
  | drop =>
    simp only [Gatehouse.act]
    split
    · dsimp only
      split
      · rfl
      · exact Gates.length_abandon
    · rfl
  | wait =>
    simp only [Gatehouse.act]
    split <;> rfl

theorem mem_held_act {act : Act} (member : handle ∈ (house.act act).held) :
    handle ∈ house.held ∨ (∃ guild, house.gates.get? guild = some handle) ∨
      ∃ guild, act = .getOrCreate guild ∧ handle = (house.gates.getOrCreate guild).1 := by
  cases act with
  | getOrCreate guild =>
    rcases List.mem_cons.mp member with rfl | before
    · exact .inr (.inr ⟨guild, rfl, rfl⟩)
    · exact .inl before
  | get guild =>
    rcases List.mem_append.mp member with found | before
    · exact .inr (.inl ⟨guild, Option.mem_toList.mp found⟩)
    · exact .inl before
  | drop other =>
    simp only [Gatehouse.act] at member
    split at member
    · exact .inl (List.mem_of_mem_erase member)
    · exact .inl member
  | signal other | close other | wait other =>
    simp only [Gatehouse.act] at member
    split at member <;> exact .inl member
  | signalGuild | remove | closeAll | discard | poll => exact .inl member

theorem mem_waiters_act {act : Act} {waiter : Waiter} (member : waiter ∈ (house.act act).waiters) :
    waiter ∈ house.waiters ∨ (∃ handle ∈ house.held, waiter = ⟨handle, none⟩) ∨
      ∃ old ∈ house.waiters, waiter = old.poll house.gates := by
  cases act with
  | wait handle =>
    simp only [Gatehouse.act] at member
    split at member
    · next holds =>
      rw [List.concat_eq_append, List.mem_append, List.mem_singleton] at member
      exact member.imp_right fun new => .inl ⟨handle, holds, new⟩
    · exact .inl member
  | poll number =>
    obtain ⟨position, found⟩ := List.getElem?_of_mem member
    simp only [Gatehouse.act, List.getElem?_modify] at found
    obtain ⟨old, here, same⟩ := Option.map_eq_some_iff.mp found
    have before : old ∈ house.waiters := List.mem_of_getElem? here
    split at same
    · exact .inr (.inr ⟨old, before, same.symm⟩)
    · exact .inl (same ▸ before)
  | signal other | close other | drop other =>
    simp only [Gatehouse.act] at member
    split at member <;> exact .inl member
  | getOrCreate | get | signalGuild | remove | closeAll | discard => exact .inl member

/-- What holds at all times. -/
structure Sound (house : Gatehouse) : Prop where
  /-- A registered gate is of the guild it is registered for. -/
  registered : ∀ guild handle, house.gates.get? guild = some handle →
    ∃ state, house.gates.gate? handle = some ⟨guild, state⟩
  held : ∀ handle ∈ house.held, (house.gates.gate? handle).isSome
  waiters : ∀ waiter ∈ house.waiters, waiter.Told house.gates

theorem sound_empty : empty.Sound where
  registered := by simp [Gates.get?, empty, Gates.empty]
  held := by simp [empty]
  waiters := by simp [empty]

namespace Sound

theorem given (sound : house.Sound) (guild : Snowflake) :
    ∃ state, (house.gates.getOrCreate guild).2.gate? (house.gates.getOrCreate guild).1 =
      some ⟨guild, state⟩ := by
  cases known : house.gates.get? guild with
  | some handle =>
    rw [Gates.getOrCreate_of_get? known]
    exact sound.registered guild handle known
  | none =>
    rw [Gates.getOrCreate_of_none known]
    exact ⟨.pending, by simp [Gates.gate?]⟩

theorem registered_act (sound : house.Sound) (act : Act)
    (found : (house.act act).gates.get? guild = some handle) :
    ∃ state, (house.act act).gates.gate? handle = some ⟨guild, state⟩ := by
  have kept (before : house.gates.get? guild = some handle) :
      ∃ state, (house.act act).gates.gate? handle = some ⟨guild, state⟩ := by
    obtain ⟨state, made⟩ := sound.registered guild handle before
    obtain ⟨final, still, -⟩ := later_act house act handle _ made
    exact ⟨final, still⟩
  rw [get?_act] at found
  cases act with
  | getOrCreate other =>
    dsimp only at found
    split at found
    · next here =>
      obtain rfl := Option.some.inj found
      exact here ▸ sound.given other
    · exact kept found
  | remove other =>
    dsimp only at found
    split at found
    · cases found
    · exact kept found
  | closeAll | discard => cases found
  | get | signalGuild | signal | close | drop | wait | poll => exact kept found

theorem act (sound : house.Sound) (act : Act) : (house.act act).Sound where
  registered _ _ := sound.registered_act act
  held handle member := by
    rcases mem_held_act member with before | ⟨guild, found⟩ | ⟨guild, rfl, rfl⟩
    · exact (later_act house act).made (sound.held handle before)
    · obtain ⟨state, made⟩ := sound.registered guild handle found
      exact (later_act house act).made (Option.isSome_of_eq_some made)
    · obtain ⟨state, made⟩ := sound.given guild
      exact Option.isSome_of_eq_some made
  waiters waiter member := by
    have later := later_act house act
    rcases mem_waiters_act member with before | ⟨handle, holds, rfl⟩ | ⟨old, before, rfl⟩
    · exact (sound.waiters waiter before).later later
    · obtain ⟨gate, found⟩ := Option.isSome_iff_exists.mp (later.made (sound.held handle holds))
      exact ⟨gate, found, nofun⟩
    · exact (sound.waiters old before).poll.later later

theorem run (sound : house.Sound) (acts : List Act) : (house.run acts).Sound := by
  induction acts generalizing house with
  | nil => exact sound
  | cons act rest ih => exact ih (sound.act act)

end Sound

/-- A gate of a guild has a state, and is kept as a tenure says. -/
structure Keeps (house : Gatehouse) (guild : Snowflake) (handle : Handle) (state : GateState)
    (tenure : Tenure) : Prop where
  sound : house.Sound
  made : house.gates.gate? handle = some ⟨guild, state⟩
  registered : house.gates.get? guild = some handle ↔ tenure.registered
  holders : house.held.count handle = tenure.holders

namespace Keeps

theorem get?_iff (keeps : house.Keeps guild handle state tenure) (other : Snowflake) :
    house.gates.get? other = some handle ↔ tenure.registered ∧ other = guild := by
  rw [← keeps.registered]
  constructor
  · intro found
    obtain ⟨_, own⟩ := keeps.sound.registered other handle found
    rw [keeps.made] at own
    obtain rfl : guild = other := congrArg Gate.guild (Option.some.inj own)
    exact ⟨found, rfl⟩
  · rintro ⟨found, rfl⟩
    exact found

theorem mem_registered (keeps : house.Keeps guild handle state tenure) :
    handle ∈ house.gates.registered.values ↔ tenure.registered := by
  simp [Gates.mem_registered, keeps.get?_iff]

theorem mem_held (keeps : house.Keeps guild handle state tenure) :
    handle ∈ house.held ↔ 0 < tenure.holders := by
  rw [← keeps.holders, List.count_pos_iff]

/-- The register gives the gate out for its guild, as long as it has it. -/
theorem given_iff (keeps : house.Keeps guild handle state tenure) (other : Snowflake) :
    (house.gates.getOrCreate other).1 = handle ↔ tenure.registered ∧ other = guild := by
  rw [← keeps.get?_iff]
  cases known : house.gates.get? other with
  | some registered => rw [Gates.getOrCreate_of_get? known, Option.some.injEq]
  | none =>
    rw [Gates.getOrCreate_of_none known]
    simp only [reduceCtorEq, iff_false]
    rintro rfl
    -- The gate that is made has a new number.
    have made := keeps.made
    simp [Gates.gate?] at made

/-- The gate is let go of by the last that keeps it. -/
theorem dropped_iff (keeps : house.Keeps guild handle state tenure) :
    handle ∈ house.held ∧ handle ∉ house.held.erase handle ∧
      handle ∉ house.gates.registered.values ↔ tenure = ⟨false, 1⟩ := by
  rw [keeps.mem_held, ← List.count_eq_zero, List.count_erase_self, keeps.holders, keeps.mem_registered]
  obtain ⟨registered, holders⟩ := tenure
  cases registered
  · simp only [Bool.false_eq_true, not_false_eq_true, and_true, Tenure.mk.injEq, true_and]
    omega
  · simp

theorem discarded_iff (keeps : house.Keeps guild handle state tenure) :
    handle ∈ house.gates.registered.values.filter (· ∉ house.held) ↔ tenure = ⟨true, 0⟩ := by
  obtain ⟨registered, holders⟩ := tenure
  simp [keeps.mem_registered, keeps.mem_held]

theorem gate?_settle_held (keeps : house.Keeps guild handle state tenure) (other : Handle)
    (outcome : GateState) :
    (if other ∈ house.held then house.gates.settle other outcome else house.gates).gate? handle =
      some ⟨guild, if (0 < tenure.holders ∧ other = handle) ∧ state = .pending then outcome
        else state⟩ := by
  have settled := Gates.gate?_settle keeps.made other outcome
  by_cases own : other = handle
  · subst own
    by_cases holds : other ∈ house.held
    · simpa [holds, keeps.mem_held.mp holds] using settled
    · simpa [holds, mt keeps.mem_held.mpr holds] using keeps.made
  · split
    · simpa [own] using settled
    · simpa [own] using keeps.made

theorem gate?_drop (keeps : house.Keeps guild handle state tenure) (other : Handle) :
    (house.act (.drop other)).gates.gate? handle =
      some ⟨guild, if (tenure = ⟨false, 1⟩ ∧ other = handle) ∧ state = .pending then .closed
        else state⟩ := by
  have abandoned := Gates.gate?_abandon keeps.made other
  by_cases own : other = handle
  · subst own
    simp only [Gatehouse.act, ← keeps.dropped_iff]
    by_cases holds : other ∈ house.held <;> by_cases still : other ∈ house.held.erase other
    · simpa [holds, still] using keeps.made
    · simpa [holds, still] using abandoned
    all_goals simpa [holds] using keeps.made
  · simp only [Gatehouse.act]
    split
    · dsimp only
      split
      · simpa [own] using keeps.made
      · simpa [own] using abandoned
    · simpa [own] using keeps.made

/-- An act settles the gate if it reaches it, and the gate is pending. -/
theorem gate?_act (keeps : house.Keeps guild handle state tenure) (act : Act) :
    (house.act act).gates.gate? handle =
      some ⟨guild, if state = .pending then (tenure.reach? guild handle act).getD .pending else state⟩ := by
  have reached (reach : Prop) [Decidable reach] (outcome : GateState) :
      (if reach ∧ state = .pending then outcome else state) =
        if state = .pending then (if reach then some outcome else none).getD .pending else state := by
    by_cases waiting : state = .pending <;> by_cases reach <;> simp_all
  have unreached : (if state = .pending then GateState.pending else state) = state :=
    ite_eq_right_iff.mpr Eq.symm
  cases act with
  | getOrCreate other =>
    rw [Tenure.reach?, Option.getD_none, unreached]
    exact Gates.gate?_getOrCreate keeps.made other
  | signalGuild other =>
    refine (Gates.gate?_signalGuild keeps.made other).trans ?_
    rw [reached]
    simp only [keeps.get?_iff, Tenure.reach?]
  | remove other =>
    refine (Gates.gate?_remove keeps.made other).trans ?_
    rw [reached]
    simp only [keeps.get?_iff, Tenure.reach?]
  | closeAll =>
    refine (Gates.gate?_closeAll keeps.made).trans ?_
    rw [reached]
    simp only [keeps.mem_registered, Tenure.reach?]
  | signal other =>
    rw [Tenure.reach?, ← reached, ← keeps.gate?_settle_held, Gatehouse.act]
    split <;> rfl
  | close other =>
    rw [Tenure.reach?, ← reached, ← keeps.gate?_settle_held, Gatehouse.act]
    split <;> rfl
  | drop other => rw [Tenure.reach?, ← reached, keeps.gate?_drop]
  | discard =>
    refine (Gates.gate?_foldl_close keeps.made _).trans ?_
    rw [reached]
    simp only [keeps.discarded_iff, Tenure.reach?]
  | wait other =>
    rw [Tenure.reach?, Option.getD_none, unreached, ← keeps.made, Gatehouse.act]
    split <;> rfl
  | get | poll =>
    rw [Tenure.reach?, Option.getD_none, unreached]
    exact keeps.made

theorem registered_act (keeps : house.Keeps guild handle state tenure) (act : Act) :
    (house.act act).gates.get? guild = some handle ↔ (tenure.next guild handle act).registered := by
  rw [get?_act]
  cases act with
  | getOrCreate other =>
    simp only [Tenure.next]
    split
    · next here =>
      subst here
      rw [Option.some.injEq, keeps.given_iff]
      split <;> simp
    · next apart =>
      rw [keeps.registered, if_neg fun both => apart both.2.symm]
  | remove other =>
    by_cases here : guild = other
    · subst here
      simp [Tenure.next]
    · have apart : ¬ other = guild := fun same => here same.symm
      simpa [here, apart, Tenure.next] using keeps.registered
  | closeAll | discard => simp [Tenure.next]
  | get other | drop other =>
    simp only [Tenure.next]
    split <;> exact keeps.registered
  | signalGuild | signal | close | wait | poll => exact keeps.registered

theorem holders_act (keeps : house.Keeps guild handle state tenure) (act : Act) :
    (house.act act).held.count handle = (tenure.next guild handle act).holders := by
  have holders := keeps.holders
  cases act with
  | getOrCreate other =>
    have given := keeps.given_iff other
    simp only [Gatehouse.act, Tenure.next, ← given, List.count_cons, beq_iff_eq, holders]
    split <;> rfl
  | get other =>
    have found := keeps.get?_iff other
    simp only [Gatehouse.act, Tenure.next, ← found, List.count_append, holders]
    cases house.gates.get? other with
    | none => simp
    | some given =>
      simp only [Option.toList_some, List.count_singleton, beq_iff_eq, Option.some.injEq]
      split <;> simp [Nat.add_comm]
  | drop other =>
    simp only [Gatehouse.act, Tenure.next]
    by_cases own : other = handle
    · subst own
      by_cases holds : other ∈ house.held
      · simp [holds, holders]
      · have unheld := mt keeps.mem_held.mpr holds
        rw [if_neg holds, if_pos rfl, holders]
        dsimp only
        omega
    · rw [if_neg own]
      split
      · exact (List.count_erase_of_ne (Ne.symm own)).trans holders
      · exact holders
  | signal other | close other | wait other =>
    simp only [Gatehouse.act]
    split <;> exact holders
  | remove other =>
    simp only [Tenure.next]
    split <;> exact holders
  | signalGuild | closeAll | discard | poll => exact holders

protected theorem act (keeps : house.Keeps guild handle state tenure) (act : Act) :
    (house.act act).Keeps guild handle
      (if state = .pending then (tenure.reach? guild handle act).getD .pending else state)
      (tenure.next guild handle act) :=
  ⟨keeps.sound.act act, keeps.gate?_act act, keeps.registered_act act, keeps.holders_act act⟩

end Keeps

end Gatehouse

end GatewayCache
