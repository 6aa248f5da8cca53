import GatewayCache.Proofs.Gate

/-! # The register of gates

Every registered gate is the gate of its own guild and is not closed, and a gate
that has opened or closed is noted as such once. So an update of a guild touches at
most the gate of that guild, and a gate that was taken off the register is never
touched again.
-/

namespace GatewayCache.Gates

variable {gates : Gates} {handle other : Handle} {guild elsewhere : Snowflake}
  {outcome : GateState} {gate : Gate}

theorem state_of_gate? (found : gates.gate? handle = some gate) :
    gates.state handle = gate.state := by
  simp [state, found]

theorem gate?_settle_of_ne (apart : other ≠ handle) :
    (gates.settle handle outcome).gate? other = gates.gate? other := by
  have numbers : handle.number ≠ other.number := by
    intro same
    cases handle
    cases other
    exact apart (congrArg Handle.mk same.symm)
  unfold settle
  split
  · simp [gate?, numbers]
  · rfl

theorem gate?_settle_self (found : gates.gate? handle = some ⟨guild, .pending⟩) :
    (gates.settle handle outcome).gate? handle = some ⟨guild, outcome⟩ := by
  have waiting : gates.state handle = .pending := state_of_gate? found
  have made : gates.made[handle.number]? = some ⟨guild, .pending⟩ := found
  simp [settle, waiting, gate?, made]

theorem state_settle_of_ne (apart : other ≠ handle) :
    (gates.settle handle outcome).state other = gates.state other := by
  rw [state, gate?_settle_of_ne apart, ← state]

theorem settled_settle : (gates.settle handle outcome).settled =
    gates.settled ++ if gates.state handle = .pending then [handle] else [] := by
  unfold settle
  split <;> simp

theorem getOrCreate_of_none (absent : gates.get? guild = none) :
    gates.getOrCreate guild =
      (⟨gates.made.length⟩,
        { gates with
          made := gates.made.concat ⟨guild, .pending⟩
          registered := gates.registered.insert guild ⟨gates.made.length⟩ }) := by
  simp [getOrCreate, absent, create]

theorem gate?_getOrCreate (found : gates.gate? handle = some gate) (guild : Snowflake) :
    (gates.getOrCreate guild).2.gate? handle = some gate := by
  cases known : gates.get? guild with
  | some registered => rw [getOrCreate_of_get? known, found]
  | none =>
    have made : gates.made[handle.number]? = some gate := found
    have inside : handle.number < gates.made.length := (List.getElem?_eq_some_iff.mp made).1
    rw [getOrCreate_of_none known]
    simp only [gate?, List.concat_eq_append]
    rw [List.getElem?_append_left inside, made]

theorem get?_getOrCreate_of_ne (apart : elsewhere ≠ guild) :
    (gates.getOrCreate guild).2.get? elsewhere = gates.get? elsewhere := by
  cases known : gates.get? guild with
  | some registered => rw [getOrCreate_of_get? known]
  | none =>
    rw [getOrCreate_of_none known]
    simp [get?, Std.ExtTreeMap.getElem?_insert, apart.symm]

theorem settled_getOrCreate : (gates.getOrCreate guild).2.settled = gates.settled := by
  cases known : gates.get? guild with
  | some registered => rw [getOrCreate_of_get? known]
  | none => rw [getOrCreate_of_none known]

/-- What holds of the gates at all times. -/
structure Sound (gates : Gates) : Prop where
  /-- A registered gate is of the guild it is registered for, and is not closed. -/
  registered : ∀ guild handle, gates.get? guild = some handle →
    ∃ state, gates.gate? handle = some ⟨guild, state⟩ ∧ state ≠ .closed
  /-- What is noted as settled has opened or closed. -/
  settled : ∀ handle ∈ gates.settled,
    ∃ gate, gates.gate? handle = some gate ∧ gate.state ≠ .pending
  /-- A gate that has opened is noted. -/
  opened : ∀ handle, gates.state handle = .ready → handle ∈ gates.settled

theorem sound_empty : Sound empty where
  registered := by simp [get?, empty]
  settled := by simp [empty]
  opened := by simp [state, gate?, empty]

namespace Sound

theorem eq_of_get? (sound : gates.Sound) (first : gates.get? guild = some handle)
    (second : gates.get? elsewhere = some handle) : guild = elsewhere := by
  obtain ⟨_, made, -⟩ := sound.registered guild handle first
  obtain ⟨_, same, -⟩ := sound.registered elsewhere handle second
  rw [made] at same
  cases same
  rfl

theorem state_of_mem_settled (sound : gates.Sound) (noted : handle ∈ gates.settled) :
    gates.state handle ≠ .pending := by
  obtain ⟨gate, found, done⟩ := sound.settled handle noted
  rw [state_of_gate? found]
  exact done

theorem getOrCreate (sound : gates.Sound) (guild : Snowflake) :
    (gates.getOrCreate guild).2.Sound := by
  cases known : gates.get? guild with
  | some registered => rwa [getOrCreate_of_get? known]
  | none =>
    have fresh : (gates.getOrCreate guild).2.gate? ⟨gates.made.length⟩ =
        some ⟨guild, .pending⟩ := by
      rw [getOrCreate_of_none known]
      simp [gate?]
    refine ⟨?_, ?_, ?_⟩
    · intro elsewhere handle registered
      by_cases here : elsewhere = guild
      · subst here
        rw [get?_getOrCreate, getOrCreate_of_none known, Option.some.injEq] at registered
        exact ⟨.pending, registered ▸ fresh, by decide⟩
      · rw [get?_getOrCreate_of_ne here] at registered
        obtain ⟨state, found, notClosed⟩ := sound.registered elsewhere handle registered
        exact ⟨state, gate?_getOrCreate found guild, notClosed⟩
    · intro handle noted
      rw [settled_getOrCreate] at noted
      obtain ⟨gate, found, done⟩ := sound.settled handle noted
      exact ⟨gate, gate?_getOrCreate found guild, done⟩
    · intro handle ready
      rw [settled_getOrCreate]
      refine sound.opened handle ?_
      by_cases new : handle = ⟨gates.made.length⟩
      · rw [new, state_of_gate? fresh] at ready
        cases ready
      · have apart : handle.number ≠ gates.made.length := fun same => new (congrArg Handle.mk same)
        rw [getOrCreate_of_none known] at ready
        simp only [state, gate?, List.concat_eq_append] at ready ⊢
        by_cases inside : handle.number < gates.made.length
        · rwa [List.getElem?_append_left inside] at ready
        · rw [List.getElem?_eq_none (by simp; omega)] at ready
          cases ready

/-- A gate may be settled either way, but only closed once it is off the register. -/
theorem settle (sound : gates.Sound) (final : outcome ≠ .pending)
    (unregistered : outcome = .closed → ∀ guild, gates.get? guild ≠ some handle) :
    (gates.settle handle outcome).Sound := by
  by_cases waiting : gates.state handle = .pending
  · obtain ⟨owner, made⟩ : ∃ owner, gates.gate? handle = some ⟨owner, .pending⟩ := by
      cases found : gates.gate? handle with
      | none => simp [state, found] at waiting
      | some gate =>
        rw [state_of_gate? found] at waiting
        exact ⟨gate.guild, by rw [← waiting]⟩
    have now : (gates.settle handle outcome).gate? handle = some ⟨owner, outcome⟩ :=
      gate?_settle_self made
    refine ⟨?_, ?_, ?_⟩
    · intro guild other registered
      rw [get?_settle] at registered
      obtain ⟨state, found, notClosed⟩ := sound.registered guild other registered
      by_cases same : other = handle
      · subst same
        rw [made] at found
        cases found
        exact ⟨outcome, now, fun closed => unregistered closed _ registered⟩
      · exact ⟨state, (gate?_settle_of_ne same).trans found, notClosed⟩
    · intro other noted
      by_cases same : other = handle
      · exact ⟨⟨owner, outcome⟩, same ▸ now, final⟩
      · have before : other ∈ gates.settled := by
          simpa [settled_settle, waiting, same] using noted
        obtain ⟨gate, found, done⟩ := sound.settled other before
        exact ⟨gate, (gate?_settle_of_ne same).trans found, done⟩
    · intro other ready
      rw [settled_settle, if_pos waiting, List.mem_append, List.mem_singleton]
      by_cases same : other = handle
      · exact .inr same
      · rw [state_settle_of_ne same] at ready
        exact .inl (sound.opened other ready)
  · rwa [settle_of_state_ne waiting]

theorem signal (sound : gates.Sound) (handle : Handle) : (gates.signal handle).Sound :=
  sound.settle (by decide) fun closed => GateState.noConfusion closed

theorem withGate (sound : gates.Sound) (guild : Snowflake) (ready : Bool) :
    (gates.withGate guild ready).Sound := by
  cases ready with
  | false => exact sound.getOrCreate guild
  | true => exact (sound.getOrCreate guild).signal _

end Sound

/-- The gates with none registered for a guild. -/
def without (gates : Gates) (guild : Snowflake) : Gates :=
  { gates with registered := gates.registered.erase guild }

theorem get?_without_of_ne (apart : elsewhere ≠ guild) :
    (gates.without guild).get? elsewhere = gates.get? elsewhere := by
  simp [without, get?, Std.ExtTreeMap.getElem?_erase, apart.symm]

theorem get?_without_self : (gates.without guild).get? guild = none := by
  simp [without, get?]

theorem remove_eq (found : gates.get? guild = some handle) :
    gates.remove guild = (gates.without guild).close handle := by
  simp only [remove, found, close, settle]
  split <;> simp_all [without, state, gate?]

theorem Sound.without (sound : gates.Sound) (guild : Snowflake) : (gates.without guild).Sound := by
  refine ⟨?_, sound.settled, sound.opened⟩
  intro elsewhere handle registered
  by_cases here : elsewhere = guild
  · rw [here, get?_without_self] at registered
    cases registered
  · rw [get?_without_of_ne here] at registered
    exact sound.registered elsewhere handle registered

theorem Sound.remove (sound : gates.Sound) (guild : Snowflake) : (gates.remove guild).Sound := by
  cases found : gates.get? guild with
  | none =>
    rw [Gates.remove, found]
    exact sound
  | some handle =>
    rw [remove_eq found]
    refine (sound.without guild).settle (by decide) ?_
    intro _ elsewhere registered
    by_cases here : elsewhere = guild
    · rw [here, get?_without_self] at registered
      cases registered
    · rw [get?_without_of_ne here] at registered
      exact here (sound.eq_of_get? registered found)

/-- A step of the gates for one guild. If its gate was waited for, it comes to the outcome; gates that
have settled and the gates of other guilds stay as they are. -/
structure Step (before after : Gates) (guild : Snowflake) (outcome : GateState) : Prop where
  /-- The register stays sound. -/
  sound : before.Sound → after.Sound
  /-- At most one more gate is noted as settled. -/
  settled : ∃ more : Option Handle, after.settled = before.settled ++ more.toList
  /-- The gate of the guild comes to the outcome. -/
  here : ∀ handle, before.get? guild = some handle →
    after.state handle = if before.state handle = .pending then outcome else before.state handle
  /-- It stays on the register unless it is closed. -/
  registered : outcome ≠ .closed → ∀ handle, before.get? guild = some handle →
    after.get? guild = some handle
  /-- The gates of other guilds stay as they are. -/
  elsewhere : before.Sound → ∀ other handle, other ≠ guild → before.get? other = some handle →
    after.get? other = some handle ∧ after.state handle = before.state handle

theorem step_refl (gates : Gates) (guild : Snowflake) : Step gates gates guild .pending where
  sound sound := sound
  settled := ⟨none, by simp⟩
  here handle _ := by split <;> simp_all
  registered _ _ found := found
  elsewhere _ _ _ _ found := ⟨found, rfl⟩

theorem step_getOrCreate (gates : Gates) (guild : Snowflake) :
    Step gates (gates.getOrCreate guild).2 guild .pending where
  sound sound := sound.getOrCreate guild
  settled := ⟨none, by simp [settled_getOrCreate]⟩
  here handle found := by
    rw [getOrCreate_of_get? found]
    split <;> simp_all
  registered _ handle found := by
    rw [getOrCreate_of_get? found]
    exact found
  elsewhere sound other handle apart found := by
    refine ⟨(get?_getOrCreate_of_ne apart).trans found, ?_⟩
    obtain ⟨state, made, -⟩ := sound.registered other handle found
    rw [state_of_gate? (gate?_getOrCreate made guild), ← state_of_gate? made]

theorem state_settle_self (gates : Gates) (handle : Handle) (outcome : GateState) :
    (gates.settle handle outcome).state handle =
      if gates.state handle = .pending then outcome else gates.state handle := by
  split
  · next waiting => exact state_settle waiting
  · next done => rw [settle_of_state_ne done]

theorem settled_settle_le (gates : Gates) (handle : Handle) (outcome : GateState) :
    ∃ more : Option Handle,
      (gates.settle handle outcome).settled = gates.settled ++ more.toList := by
  rw [settled_settle]
  split
  · exact ⟨some handle, rfl⟩
  · exact ⟨none, rfl⟩

theorem step_signalGuild (gates : Gates) (guild : Snowflake) :
    Step gates (gates.signalGuild guild).2 guild .ready := by
  cases found : gates.get? guild with
  | none =>
    have same : (gates.signalGuild guild).2 = gates := by simp [signalGuild, found]
    rw [same]
    exact ⟨id, ⟨none, by simp⟩, by simp [found], by simp [found], (step_refl gates guild).elsewhere⟩
  | some gate =>
    have opened : (gates.signalGuild guild).2 = gates.signal gate := by simp [signalGuild, found]
    rw [opened]
    refine ⟨fun sound => sound.signal gate, settled_settle_le gates gate .ready, ?_, ?_, ?_⟩
    · intro handle same
      obtain rfl : gate = handle := Option.some.inj (found.symm.trans same)
      exact state_settle_self gates gate .ready
    · exact fun _ handle same => get?_signal.trans same
    · intro sound other handle apart registered
      have distinct : handle ≠ gate := by
        rintro rfl
        exact apart (sound.eq_of_get? registered found)
      exact ⟨get?_signal.trans registered, state_settle_of_ne distinct⟩

/-- Making the gate first changes nothing for a guild that has one. -/
theorem Step.of_getOrCreate {after : Gates}
    (step : Step (gates.getOrCreate guild).2 after guild outcome) :
    Step gates after guild outcome := by
  have made := step_getOrCreate gates guild
  refine ⟨fun sound => step.sound (made.sound sound), ?_, ?_, ?_, ?_⟩
  · obtain ⟨more, settled⟩ := step.settled
    rw [settled_getOrCreate] at settled
    exact ⟨more, settled⟩
  · intro handle found
    have same := step.here handle (made.registered (by decide) handle found)
    rwa [getOrCreate_of_get? found] at same
  · intro stays handle found
    exact step.registered stays handle (made.registered (by decide) handle found)
  · intro sound other handle apart found
    obtain ⟨kept, unmoved⟩ := made.elsewhere sound other handle apart found
    obtain ⟨registered, same⟩ := step.elsewhere (made.sound sound) other handle apart kept
    exact ⟨registered, same.trans unmoved⟩

theorem step_withGate (gates : Gates) (guild : Snowflake) (ready : Bool) :
    Step gates (gates.withGate guild ready) guild (if ready then .ready else .pending) := by
  cases ready with
  | false => exact step_getOrCreate gates guild
  | true =>
    have opened : gates.withGate guild true = ((gates.getOrCreate guild).2.signalGuild guild).2 := by
      simp [withGate, signalGuild, get?_getOrCreate]
    rw [opened]
    exact (step_signalGuild _ guild).of_getOrCreate

theorem state_remove (gates : Gates) (guild : Snowflake) (handle : Handle) :
    (gates.remove guild).state handle =
      if gates.get? guild = some handle ∧ gates.state handle = .pending then .closed
      else gates.state handle := by
  cases found : gates.get? guild with
  | none => simp [remove, found]
  | some gate =>
    rw [remove_eq found]
    by_cases own : gate = handle
    · subst own
      simp only [true_and]
      exact state_settle_self (gates.without guild) gate .closed
    · simp only [Option.some.injEq, own, false_and, if_false]
      exact state_settle_of_ne (Ne.symm own)

theorem get?_remove (gates : Gates) (guild elsewhere : Snowflake) :
    (gates.remove guild).get? elsewhere =
      if elsewhere = guild then none else gates.get? elsewhere := by
  cases found : gates.get? guild with
  | none =>
    have same : gates.remove guild = gates := by rw [remove, found]
    rw [same]
    split
    · next here => rw [here, found]
    · rfl
  | some handle =>
    have closed : (gates.remove guild).get? elsewhere = (gates.without guild).get? elsewhere := by
      rw [remove_eq found]
      exact get?_settle
    rw [closed]
    split
    · next here => rw [here, get?_without_self]
    · next apart => exact get?_without_of_ne apart

theorem step_remove (gates : Gates) (guild : Snowflake) :
    Step gates (gates.remove guild) guild .closed := by
  refine ⟨fun sound => sound.remove guild, ?_, ?_, fun stays => absurd rfl stays, ?_⟩
  · cases found : gates.get? guild with
    | none => exact ⟨none, by simp [remove, found]⟩
    | some gate =>
      rw [remove_eq found]
      exact settled_settle_le (gates.without guild) gate .closed
  · intro handle found
    rw [state_remove, found]
    simp
  · intro sound other handle apart registered
    have distinct : gates.get? guild ≠ some handle :=
      fun found => apart (sound.eq_of_get? registered found)
    rw [get?_remove, if_neg apart, state_remove, if_neg fun both => distinct both.1]
    exact ⟨registered, rfl⟩

theorem get?_withGate (gates : Gates) (guild elsewhere : Snowflake) (ready : Bool) :
    ((gates.withGate guild ready).get? elsewhere).isSome ↔
      elsewhere = guild ∨ (gates.get? elsewhere).isSome := by
  have made : (gates.withGate guild ready).get? elsewhere =
      (gates.getOrCreate guild).2.get? elsewhere := by
    cases ready with
    | true => exact get?_signal
    | false => rfl
  rw [made]
  by_cases here : elsewhere = guild
  · subst here
    simp [get?_getOrCreate]
  · simp [get?_getOrCreate_of_ne here, here]

theorem get?_withGate_of_get? (found : gates.get? guild = some handle) (elsewhere : Snowflake)
    (ready : Bool) : (gates.withGate elsewhere ready).get? guild = some handle := by
  have made : (gates.getOrCreate elsewhere).2.get? guild = some handle := by
    by_cases here : guild = elsewhere
    · subst here
      rwa [getOrCreate_of_get? found]
    · rwa [get?_getOrCreate_of_ne here]
  cases ready with
  | true => exact get?_signal.trans made
  | false => exact made

theorem get?_signalGuild (gates : Gates) (guild elsewhere : Snowflake) :
    (gates.signalGuild guild).2.get? elsewhere = gates.get? elsewhere := by
  unfold signalGuild
  split
  · exact get?_signal
  · rfl

theorem get?_closeAll (gates : Gates) (guild : Snowflake) : gates.closeAll.get? guild = none := by
  simp [closeAll, get?]

theorem foldl_close_registered (handles : List Handle) (gates : Gates)
    (registered : Std.ExtTreeMap Snowflake Handle) :
    { handles.foldl close gates with registered } =
      handles.foldl close { gates with registered } := by
  induction handles generalizing gates with
  | nil => rfl
  | cons handle rest ih =>
    have one : { gates.close handle with registered } =
        ({ gates with registered } : Gates).close handle := by
      have same : ({ gates with registered } : Gates).state handle = gates.state handle := rfl
      simp only [close, settle, same]
      by_cases waiting : gates.state handle = .pending
      · simp only [waiting, if_true]
      · simp only [waiting, if_false]
    rw [List.foldl_cons, List.foldl_cons, ih, one]

theorem Sound.closeAll (sound : gates.Sound) : gates.closeAll.Sound := by
  have each : ∀ (handles : List Handle) {gates : Gates}, gates.Sound →
      (∀ guild, gates.get? guild = none) → (handles.foldl close gates).Sound := by
    intro handles
    induction handles with
    | nil => exact fun sound _ => sound
    | cons handle rest ih =>
      intro gates sound none
      exact ih (sound.settle (by decide) fun _ guild => by simp [none]) fun guild => by
        rw [close, get?_settle, none]
  rw [Gates.closeAll, foldl_close_registered]
  exact each _ ⟨by simp [get?], sound.settled, sound.opened⟩ (by simp [get?])

/-- Every registered gate has opened. -/
def AllReady (gates : Gates) : Prop :=
  ∀ guild handle, gates.get? guild = some handle → gates.state handle = .ready

/-- A step leaves the register open if it leaves the gate of its guild open, or registers none. -/
theorem AllReady.of_step (ready : gates.AllReady) (sound : gates.Sound) {after : Gates}
    (step : Step gates after guild outcome)
    (known : ∀ other, other ≠ guild → (after.get? other).isSome → (gates.get? other).isSome)
    (here : ∀ handle, after.get? guild = some handle → after.state handle = .ready) :
    after.AllReady := by
  intro other handle registered
  by_cases own : other = guild
  · exact here handle (own ▸ registered)
  · obtain ⟨before, found⟩ := Option.isSome_iff_exists.mp (known other own (by simp [registered]))
    obtain ⟨still, same⟩ := step.elsewhere sound other before own found
    obtain rfl : before = handle := Option.some.inj (still.symm.trans registered)
    rw [same]
    exact ready other before found

theorem AllReady.withGate (ready : gates.AllReady) (sound : gates.Sound) (guild : Snowflake) :
    (gates.withGate guild true).AllReady := by
  refine ready.of_step sound (step_withGate gates guild true) ?_ ?_
  · intro other apart registered
    exact ((get?_withGate gates guild other true).mp registered).resolve_left apart
  · intro handle registered
    have made : (gates.withGate guild true).get? guild = some (gates.getOrCreate guild).1 :=
      get?_signal.trans (get?_getOrCreate gates guild)
    obtain rfl := Option.some.inj (made.symm.trans registered)
    obtain ⟨state, found, notClosed⟩ :=
      (sound.withGate guild true).registered guild _ registered
    have settled : (gates.withGate guild true).state (gates.getOrCreate guild).1 =
        if (gates.getOrCreate guild).2.state (gates.getOrCreate guild).1 = .pending then .ready
        else (gates.getOrCreate guild).2.state (gates.getOrCreate guild).1 := state_settle_self ..
    cases before : (gates.getOrCreate guild).2.state (gates.getOrCreate guild).1 with
    | pending | ready => simpa [before] using settled
    | closed =>
      rw [state_of_gate? found, before] at settled
      exact absurd settled notClosed

theorem AllReady.signalGuild (ready : gates.AllReady) (sound : gates.Sound) (guild : Snowflake) :
    (gates.signalGuild guild).2.AllReady := by
  refine ready.of_step sound (step_signalGuild gates guild) ?_ ?_
  · intro other _ registered
    rwa [get?_signalGuild] at registered
  · intro handle registered
    rw [get?_signalGuild] at registered
    have opened := ready guild handle registered
    rw [(step_signalGuild gates guild).here handle registered, opened]
    rfl

theorem AllReady.remove (ready : gates.AllReady) (sound : gates.Sound) (guild : Snowflake) :
    (gates.remove guild).AllReady := by
  refine ready.of_step sound (step_remove gates guild) ?_ ?_
  · intro other apart registered
    rwa [get?_remove, if_neg apart] at registered
  · intro handle registered
    simp [get?_remove] at registered

end GatewayCache.Gates
