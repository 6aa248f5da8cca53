import Mathlib.Data.List.Induction
import GatewayCache.Proofs.Gate.Gatehouse

/-! # Every gate, from its making on

Callers start with no gates at all. Each gate there is was made where the register had none
for its guild, and what holds of it from then on can be told from what they did afterwards.
-/

namespace GatewayCache.Gatehouse

open Gates (Later)

variable {house : Gatehouse} {guild : Snowflake} {handle : Handle} {tenure : Tenure}
  {state : GateState}

namespace Tenure

theorem reach?_ne_pending {act : Act} {outcome : GateState}
    (reached : tenure.reach? guild handle act = some outcome) : outcome ≠ .pending := by
  rintro rfl
  cases act <;> simp [reach?] at reached

theorem reach?_of_unregistered {act : Act} (asked : act.isOnRegister)
    (unregistered : ¬ tenure.registered) : tenure.reach? guild handle act = none := by
  cases act with
  | signalGuild | remove | closeAll => simp [reach?, unregistered]
  | getOrCreate | get => rfl
  | signal | close | drop | discard | wait | poll => simp [Act.isOnRegister, Act.guild?] at asked

theorem reach?_of_guild_ne {act : Act} {other : Snowflake} (named : act.guild? = some other)
    (elsewhere : ¬ (tenure.registered ∧ other = guild)) : tenure.reach? guild handle act = none := by
  cases act with
  | signalGuild | remove =>
    obtain rfl := Option.some.inj named
    exact if_neg elsewhere
  | getOrCreate | get => rfl
  | closeAll | signal | close | drop | discard | wait | poll => cases named

theorem next_unregistered (act : Act) (unregistered : ¬ tenure.registered) :
    ¬ (tenure.next guild handle act).registered := by
  cases act <;> simp only [next] <;> (try split) <;> simp_all

theorem after_unregistered (acts : List Act) (unregistered : ¬ tenure.registered) :
    ¬ (tenure.after guild handle acts).registered := by
  induction acts generalizing tenure with
  | nil => exact unregistered
  | cons act rest ih => exact ih (next_unregistered act unregistered)

end Tenure

namespace Keeps

/-- A pending gate comes to what the first act that reaches it makes of it, and any other stays. -/
protected theorem run (keeps : house.Keeps guild handle state tenure) (acts : List Act) :
    (house.run acts).Keeps guild handle
      (if state = .pending then tenure.fate guild handle acts else state)
      (tenure.after guild handle acts) := by
  induction acts generalizing house state tenure with
  | nil =>
    rw [Tenure.fate, ite_eq_right_iff.mpr Eq.symm]
    exact keeps
  | cons act rest ih =>
    have later := ih (keeps.act act)
    suffices same : (if state = .pending then tenure.fate guild handle (act :: rest) else state) =
        if (if state = .pending then (tenure.reach? guild handle act).getD .pending else state) =
          .pending then (tenure.next guild handle act).fate guild handle rest
        else if state = .pending then (tenure.reach? guild handle act).getD .pending else state by
      rw [same]
      exact later
    by_cases waiting : state = .pending
    · cases reached : tenure.reach? guild handle act with
      | none => simp [waiting, reached, Tenure.fate]
      | some outcome => simp [waiting, reached, Tenure.fate, Tenure.reach?_ne_pending reached]
    · simp [waiting]

theorem outcome_poll (keeps : house.Keeps guild handle state tenure) {waiter : Waiter}
    (member : waiter ∈ house.waiters) (own : waiter.gate = handle) :
    (waiter.poll house.gates).outcome = if state = .pending then none else some state :=
  (keeps.sound.waiters waiter member).outcome_poll (own ▸ keeps.made)

theorem outcome_eq (keeps : house.Keeps guild handle state tenure) {waiter : Waiter}
    (member : waiter ∈ house.waiters) (own : waiter.gate = handle) {outcome : GateState}
    (came : waiter.outcome = some outcome) : outcome = state := by
  obtain ⟨gate, found, ended⟩ := keeps.sound.waiters waiter member
  rw [own, keeps.made, Option.some.injEq] at found
  obtain rfl := found
  exact (ended outcome came).2.symm

theorem gate?_act_of_unreached (keeps : house.Keeps guild handle state tenure) {act : Act}
    (unreached : tenure.reach? guild handle act = none) :
    (house.act act).gates.gate? handle = house.gates.gate? handle := by
  rw [keeps.gate?_act, unreached, Option.getD_none, ite_eq_right_iff.mpr Eq.symm, keeps.made]

end Keeps

theorem Sound.keeps_made (sound : house.Sound) (absent : house.gates.get? guild = none) :
    (house.act (.getOrCreate guild)).Keeps guild ⟨house.gates.made.length⟩ .pending .made where
  sound := sound.act _
  made := by simp [Gatehouse.act, Gates.getOrCreate_of_none absent, Gates.gate?]
  registered := by simp [get?_act, Gates.getOrCreate_of_none absent, Tenure.made]
  holders := by
    have unheld : ⟨house.gates.made.length⟩ ∉ house.held := by
      intro held
      have made := sound.held _ held
      simp [Gates.gate?] at made
    simp [Gatehouse.act, Gates.getOrCreate_of_none absent, Tenure.made, List.count_eq_zero.mpr unheld]

theorem act_of_gate?_new {act : Act} {gate : Gate} (fresh : house.gates.gate? handle = none)
    (made : (house.act act).gates.gate? handle = some gate) :
    act = .getOrCreate gate.guild ∧ house.gates.get? gate.guild = none ∧
      handle = ⟨house.gates.made.length⟩ := by
  have past : house.gates.made.length ≤ handle.number := List.getElem?_eq_none_iff.mp fresh
  have within : handle.number < (house.act act).gates.made.length :=
    (List.getElem?_eq_some_iff.mp made).1
  have length := length_act house act
  cases act with
  | getOrCreate guild =>
    dsimp only at length
    cases known : house.gates.get? guild with
    | some registered =>
      rw [Gates.getOrCreate_of_get? known] at length
      dsimp only at length
      omega
    | none =>
      simp only [Gates.getOrCreate_of_none known, List.concat_eq_append, List.length_append,
        List.length_singleton] at length
      have number : handle.number = house.gates.made.length := by omega
      have here : (house.act (.getOrCreate guild)).gates.gate? handle = some ⟨guild, .pending⟩ := by
        simp [Gatehouse.act, Gates.getOrCreate_of_none known, Gates.gate?, number]
      obtain rfl := Option.some.inj (here.symm.trans made)
      exact ⟨rfl, known, congrArg Handle.mk number⟩
  | get | signalGuild | remove | closeAll | signal | close | drop | discard | wait | poll =>
    dsimp only at length
    omega

/-- Every gate was made at some point. -/
theorem exists_making {acts : List Act} {gate : Gate}
    (made : (empty.run acts).gates.gate? handle = some gate) :
    ∃ before after, acts = before ++ .getOrCreate gate.guild :: after ∧
      (empty.run before).gates.get? gate.guild = none ∧
      handle = ⟨(empty.run before).gates.made.length⟩ := by
  induction acts using List.reverseRecOn generalizing gate with
  | nil => cases made
  | append_singleton acts act ih =>
    rw [run_append] at made
    cases earlier : (empty.run acts).gates.gate? handle with
    | none =>
      obtain ⟨rfl, absent, number⟩ := act_of_gate?_new earlier made
      exact ⟨acts, [], rfl, absent, number⟩
    | some old =>
      obtain ⟨state, still, -⟩ := later_act (empty.run acts) act handle old earlier
      obtain rfl : gate = ⟨old.guild, state⟩ := Option.some.inj (made.symm.trans still)
      obtain ⟨before, after, rfl, absent, number⟩ := ih earlier
      exact ⟨before, after ++ [act], by simp, absent, number⟩

/-- What holds of a gate that is made for a guild. -/
structure OneShot (house : Gatehouse) (guild : Snowflake) (handle : Handle) : Prop where
  /-- It was not there before. -/
  fresh : house.gates.gate? handle = none
  /-- It is pending, registered and given to the one who asked. -/
  made : (house.act (.getOrCreate guild)).Keeps guild handle .pending .made
  /-- Later its state is what the first act made of it that reached it. -/
  keeps (acts : List Act) :
    ((house.act (.getOrCreate guild)).run acts).Keeps guild handle
      (Tenure.made.fate guild handle acts) (Tenure.made.after guild handle acts)
  /-- Once it is not pending any more, its state stays. -/
  settled (acts more : List Act) : Tenure.made.fate guild handle acts ≠ .pending →
    Tenure.made.fate guild handle (acts ++ more) = Tenure.made.fate guild handle acts
  /-- A wait for it goes on while it is pending, and at the next look ends with its state. -/
  awaited (acts : List Act) :
    let now := (house.act (.getOrCreate guild)).run acts
    ∀ waiter ∈ now.waiters, waiter.gate = handle →
      (waiter.poll now.gates).outcome =
        let fate := Tenure.made.fate guild handle acts
        if fate = .pending then none else some fate
  /-- What a wait has ended with is its state. -/
  told (acts : List Act) :
    ∀ waiter ∈ ((house.act (.getOrCreate guild)).run acts).waiters, waiter.gate = handle →
      ∀ outcome, waiter.outcome = some outcome → outcome = Tenure.made.fate guild handle acts
  /-- Where the register is asked about a guild and has another gate for it, or none, the gate stays
  as it is. -/
  elsewhere (acts : List Act) (act : Act) (other : Snowflake) :
    let now := (house.act (.getOrCreate guild)).run acts
    act.guild? = some other → now.gates.get? other ≠ some handle →
      (now.act act).gates.gate? handle = now.gates.gate? handle
  /-- Once it is off the register, the register does not reach it, and does not get it back. -/
  removed (acts : List Act) :
    let now := (house.act (.getOrCreate guild)).run acts
    now.gates.get? guild ≠ some handle → ∀ more,
      (now.run more).gates.get? guild ≠ some handle ∧
        ∀ act : Act, act.isOnRegister →
          ((now.run more).act act).gates.gate? handle = (now.run more).gates.gate? handle

theorem Sound.oneShot (sound : house.Sound) (absent : house.gates.get? guild = none) :
    house.OneShot guild ⟨house.gates.made.length⟩ := by
  have fresh : house.gates.gate? ⟨house.gates.made.length⟩ = none := by simp [Gates.gate?]
  have made := sound.keeps_made absent
  generalize Handle.mk house.gates.made.length = handle at fresh made ⊢
  have keeps (acts : List Act) :
      ((house.act (.getOrCreate guild)).run acts).Keeps guild handle
        (Tenure.made.fate guild handle acts) (Tenure.made.after guild handle acts) :=
    made.run acts
  refine ⟨fresh, made, keeps, ?settled, ?awaited, ?told, ?elsewhere, ?removed⟩
  case settled =>
    intro acts more final
    have later := (keeps acts).run more
    rw [if_neg final, ← run_append] at later
    exact congrArg Gate.state (Option.some.inj ((keeps (acts ++ more)).made.symm.trans later.made))
  case awaited => exact fun acts waiter member own => (keeps acts).outcome_poll member own
  case told => exact fun acts waiter member own outcome came => (keeps acts).outcome_eq member own came
  case elsewhere =>
    intro acts act other _ named apart
    exact (keeps acts).gate?_act_of_unreached
      (Tenure.reach?_of_guild_ne named (mt ((keeps acts).get?_iff other).mpr apart))
  case removed =>
    intro acts _ off more
    have later := (keeps acts).run more
    have gone : ¬ ((Tenure.made.after guild handle acts).after guild handle more).registered :=
      Tenure.after_unregistered more ((keeps acts).registered.not.mp off)
    exact ⟨later.registered.not.mpr gone, fun act asked =>
      later.gate?_act_of_unreached (Tenure.reach?_of_unregistered asked gone)⟩

theorem get?_run_of_not_mem {acts : List Act} (absent : house.gates.get? guild = none)
    (unasked : .getOrCreate guild ∉ acts) : (house.run acts).gates.get? guild = none := by
  induction acts generalizing house with
  | nil => exact absent
  | cons act rest ih =>
    obtain ⟨apart, later⟩ := not_or.mp (mt List.mem_cons.mpr unasked)
    refine ih ?_ later
    rw [get?_act]
    cases act with
    | getOrCreate other =>
      have elsewhere : guild ≠ other := fun same => apart (congrArg Act.getOrCreate same)
      exact (if_neg elsewhere).trans absent
    | remove => simp [absent]
    | closeAll | discard => rfl
    | get | signalGuild | signal | close | drop | wait | poll => exact absent

/-- Whatever callers do, every gate there is was made for its guild at one point and is one-shot
from then on, and after a removal the guild gets another gate, which is one-shot as well. -/
theorem gates_settle_once (acts : List Act) :
    (empty.run acts).Sound ∧
    (∀ handle gate, (empty.run acts).gates.gate? handle = some gate →
      ∃ before after, acts = before ++ .getOrCreate gate.guild :: after ∧
        (empty.run before).OneShot gate.guild handle) ∧
    ∀ guild removal idle, removal = .remove guild ∨ removal = .closeAll →
      .getOrCreate guild ∉ idle →
      ∃ handle, (empty.run (acts ++ removal :: idle)).OneShot guild handle := by
  refine ⟨sound_empty.run acts, fun handle gate found => ?_, fun guild removal idle removes unasked => ?_⟩
  · obtain ⟨before, after, same, absent, rfl⟩ := exists_making found
    exact ⟨before, after, same, (sound_empty.run before).oneShot absent⟩
  · refine ⟨_, (sound_empty.run _).oneShot ?_⟩
    have absent : ((empty.run acts).act removal).gates.get? guild = none := by
      rw [get?_act]
      rcases removes with rfl | rfl
      · exact if_pos rfl
      · rfl
    have still : (((empty.run acts).act removal).run idle).gates.get? guild = none :=
      get?_run_of_not_mem absent unasked
    rw [run_append]
    exact still

/-- Two gates of one guild: the wait for the first ends with its removal, and the wait for the
second when the guild is ready, whatever is done to them afterwards. The gate of another guild goes
with the register. -/
theorem gates_settle_once_renewed :
    let acts : List Act :=
      [.getOrCreate ⟨1⟩, .wait ⟨0⟩, .remove ⟨1⟩, .getOrCreate ⟨1⟩, .wait ⟨1⟩, .signalGuild ⟨1⟩, .signal ⟨0⟩,
        .close ⟨1⟩, .getOrCreate ⟨2⟩, .wait ⟨2⟩, .drop ⟨2⟩, .discard, .poll 0, .poll 1, .poll 2]
    (empty.run acts).waiters =
        [⟨⟨0⟩, some .closed⟩, ⟨⟨1⟩, some .ready⟩, ⟨⟨2⟩, some .closed⟩] ∧
      (∃ before after, acts = before ++ .getOrCreate ⟨1⟩ :: after ∧
        (empty.run before).OneShot ⟨1⟩ ⟨0⟩) ∧
      (∃ before after, acts = before ++ .getOrCreate ⟨1⟩ :: after ∧
        (empty.run before).OneShot ⟨1⟩ ⟨1⟩) ∧
      ∃ handle, (empty.run (acts ++ [.closeAll, .getOrCreate ⟨2⟩])).OneShot ⟨1⟩ handle := by
  intro acts
  obtain ⟨-, made, renewed⟩ := gates_settle_once acts
  exact ⟨by decide +kernel, made ⟨0⟩ ⟨⟨1⟩, .closed⟩ (by decide +kernel), made ⟨1⟩ ⟨⟨1⟩, .ready⟩ (by decide +kernel),
    renewed ⟨1⟩ .closeAll [.getOrCreate ⟨2⟩] (.inr rfl) (by decide)⟩

end GatewayCache.Gatehouse
