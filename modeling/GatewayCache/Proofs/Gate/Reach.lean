import GatewayCache.Proofs.Gate.Later

/-! # Which gates are reached

Opening, closing and removing go through to one gate, or with all at once to those that
are registered. A gate that is reached while it is pending settles; nothing else changes
in a gate, whatever is done.
-/

namespace GatewayCache.Gates

variable {gates : Gates} {handle : Handle} {guild : Snowflake} {state outcome : GateState}

theorem mem_registered : handle ∈ gates.registered.values ↔ ∃ guild, gates.get? guild = some handle := by
  have listed : ∀ map : Std.ExtTreeMap Snowflake Handle, map.values = map.toList.map Prod.snd := by
    rintro ⟨⟨inner⟩⟩
    induction inner using Quotient.inductionOn with
    | h map =>
      change map.inner.values = (Std.DTreeMap.Internal.Impl.Const.toList map.inner).map Prod.snd
      rw [Std.DTreeMap.Internal.Impl.values_eq_map_snd,
        Std.DTreeMap.Internal.Impl.Const.toList_eq_toListModel_map, List.map_map]
      rfl
  simp only [listed, List.mem_map, Prod.exists, Std.ExtTreeMap.mem_toList_iff_getElem?_eq_some, get?]
  constructor
  · rintro ⟨guild, _, found, rfl⟩
    exact ⟨guild, found⟩
  · rintro ⟨guild, found⟩
    exact ⟨guild, handle, found, rfl⟩

theorem gate?_settle (made : gates.gate? handle = some ⟨guild, state⟩) (other : Handle)
    (outcome : GateState) :
    (gates.settle other outcome).gate? handle =
      some ⟨guild, if other = handle ∧ state = .pending then outcome else state⟩ := by
  by_cases same : other = handle
  · subst same
    by_cases waiting : state = .pending
    · subst waiting
      rw [gate?_settle_self made, if_pos ⟨rfl, rfl⟩]
    · have settled : gates.state other ≠ .pending := by rwa [state_of_gate? made]
      rw [settle_of_state_ne settled, made, if_neg fun both => waiting both.2]
  · rw [gate?_settle_of_ne (Ne.symm same), made, if_neg fun both => same both.1]

theorem gate?_signalGuild (made : gates.gate? handle = some ⟨guild, state⟩) (other : Snowflake) :
    (gates.signalGuild other).2.gate? handle =
      some ⟨guild, if gates.get? other = some handle ∧ state = .pending then .ready else state⟩ := by
  unfold signalGuild
  cases gates.get? other with
  | none => simpa using made
  | some gate => simpa only [Option.some.injEq, signal] using gate?_settle made gate .ready

theorem gate?_remove (made : gates.gate? handle = some ⟨guild, state⟩) (other : Snowflake) :
    (gates.remove other).gate? handle =
      some ⟨guild, if gates.get? other = some handle ∧ state = .pending then .closed else state⟩ := by
  cases found : gates.get? other with
  | none => simpa [remove, found] using made
  | some gate =>
    have kept : (gates.without other).gate? handle = some ⟨guild, state⟩ := made
    rw [remove_eq found]
    simpa only [Option.some.injEq, close] using gate?_settle kept gate .closed

theorem gate?_abandon (made : gates.gate? handle = some ⟨guild, state⟩) (other : Handle) :
    (gates.abandon other).gate? handle =
      some ⟨guild, if other ∉ gates.registered.values ∧ other = handle ∧ state = .pending then .closed
        else state⟩ := by
  unfold abandon
  by_cases registered : other ∈ gates.registered.values
  · rw [if_pos (List.contains_iff_mem.mpr registered), made, if_neg fun all => all.1 registered]
  · rw [if_neg (mt List.contains_iff_mem.mp registered), close, gate?_settle made]
    simp [registered]

theorem gate?_foldl_close (made : gates.gate? handle = some ⟨guild, state⟩) (handles : List Handle) :
    (handles.foldl close gates).gate? handle =
      some ⟨guild, if handle ∈ handles ∧ state = .pending then .closed else state⟩ := by
  induction handles generalizing gates state with
  | nil => simpa using made
  | cons first rest ih =>
    have closed : (gates.close first).gate? handle = _ := gate?_settle made first .closed
    rw [List.foldl_cons, ih closed]
    -- A gate that the first one has closed is not pending any more.
    by_cases waiting : state = .pending <;> by_cases here : first = handle <;>
      simp [waiting, here, eq_comm (a := handle)]

theorem gate?_closeAll (made : gates.gate? handle = some ⟨guild, state⟩) :
    gates.closeAll.gate? handle =
      some ⟨guild, if handle ∈ gates.registered.values ∧ state = .pending then .closed else state⟩ :=
  gate?_foldl_close made gates.registered.values

namespace Later

theorem foldl_close (gates : Gates) (handles : List Handle) :
    Later gates (handles.foldl close gates) := by
  intro handle gate found
  exact ⟨_, gate?_foldl_close found handles, fun settled => if_neg fun both => settled both.2⟩

theorem closeAll (gates : Gates) : Later gates gates.closeAll :=
  foldl_close gates gates.registered.values

theorem abandon (gates : Gates) (other : Handle) : Later gates (gates.abandon other) := by
  intro handle gate found
  exact ⟨_, gate?_abandon found other, fun settled => if_neg fun all => settled all.2.2⟩

end Later

theorem length_settle : (gates.settle handle outcome).made.length = gates.made.length := by
  unfold settle
  split <;> simp

theorem length_signalGuild : (gates.signalGuild guild).2.made.length = gates.made.length := by
  unfold signalGuild
  split
  · exact length_settle
  · rfl

theorem length_remove : (gates.remove guild).made.length = gates.made.length := by
  unfold remove
  split
  · exact length_settle
  · rfl

theorem length_foldl_close (handles : List Handle) :
    (handles.foldl close gates).made.length = gates.made.length := by
  induction handles generalizing gates with
  | nil => rfl
  | cons handle rest ih => exact ih.trans length_settle

theorem length_closeAll : gates.closeAll.made.length = gates.made.length :=
  length_foldl_close gates.registered.values

theorem length_abandon : (gates.abandon handle).made.length = gates.made.length := by
  unfold abandon
  split
  · rfl
  · exact length_settle

end GatewayCache.Gates
