import GatewayCache.Dispatch
import GatewayCache.Proofs.Json.Fields

/-! # What is read is in order

The reader puts the fields of an object in one by one, each where the order wants
it. So every object in a value that comes from a text lists its keys in ascending
order, each key once.
-/

namespace GatewayCache

namespace Fields

theorem ordered_ofList {pairs : List (String × Json)} (each : ∀ pair ∈ pairs, pair.2.ordered) :
    (ofList pairs).ordered := by
  have grow : ∀ fields : Fields, fields.ordered →
      Fields.ordered (pairs.foldl (fun fields pair => insert pair.1 pair.2 fields) fields) := by
    induction pairs with
    | nil => exact fun _ ordered => ordered
    | cons pair rest ih =>
      intro fields ordered
      have first : pair.2.ordered := each pair (by simp)
      exact ih (fun other member => each other (by simp [member])) _ (ordered_insert ordered first)
  exact grow [] rfl

end Fields

namespace Json.Reader

/-- Whatever a reading function reads has a property. -/
def Yields {α : Type} (property : α → Prop) (read : Reads α) : Prop :=
  ∀ cs value rest, read cs = some (value, rest) → property value

section Lists

variable {κ α : Type} {property : α → Prop} {value : Reads α}

theorem items_yields (yields : Yields property value) (fuel : Nat) :
    Yields (fun items => ∀ item ∈ items, property item) (items? value fuel) := by
  induction fuel with
  | zero => rintro _ _ _ ⟨⟩
  | succ fuel ih =>
    intro cs items rest reads
    obtain ⟨⟨first, behind⟩, found, more⟩ := Option.bind_eq_some_iff.mp reads
    have here := yields cs first behind found
    simp only at more
    split at more
    · obtain ⟨⟨others, last⟩, later, done⟩ := Option.bind_eq_some_iff.mp more
      obtain ⟨rfl, rfl⟩ : first :: others = items ∧ last = rest := by simpa using done
      intro item member
      rcases List.mem_cons.mp member with rfl | inside
      · exact here
      · exact ih _ others last later item inside
    · obtain ⟨rfl, -⟩ : [first] = items ∧ _ = rest := by simpa using more
      intro item member
      obtain rfl := List.mem_singleton.mp member
      exact here
    · cases more

theorem array_yields (yields : Yields property value) :
    Yields (fun items => ∀ item ∈ items, property item) (array? value) := by
  intro cs items rest reads
  unfold array? at reads
  split at reads
  · obtain ⟨rfl, -⟩ : [] = items ∧ _ = rest := by simpa using reads
    simp
  · exact items_yields yields _ _ items rest reads

theorem fields_yields (key : Reads κ) (yields : Yields property value) (fuel : Nat) :
    Yields (fun fields => ∀ field ∈ fields, property field.2) (fields? key value fuel) := by
  induction fuel with
  | zero => rintro _ _ _ ⟨⟩
  | succ fuel ih =>
    intro cs fields rest reads
    rw [fields?] at reads
    split at reads
    · obtain ⟨⟨name, behindName⟩, -, named⟩ := Option.bind_eq_some_iff.mp reads
      simp only at named
      split at named
      · obtain ⟨⟨first, behind⟩, found, more⟩ := Option.bind_eq_some_iff.mp named
        have here := yields _ first behind found
        simp only at more
        split at more
        · obtain ⟨⟨others, last⟩, later, done⟩ := Option.bind_eq_some_iff.mp more
          obtain ⟨rfl, rfl⟩ : (name, first) :: others = fields ∧ last = rest := by simpa using done
          intro field member
          rcases List.mem_cons.mp member with rfl | inside
          · exact here
          · exact ih _ others last later field inside
        · obtain ⟨rfl, -⟩ : [(name, first)] = fields ∧ _ = rest := by simpa using more
          intro field member
          obtain rfl := List.mem_singleton.mp member
          exact here
        · cases more
      · cases named
    · cases reads

theorem object_yields (key : Reads κ) (yields : Yields property value) :
    Yields (fun fields => ∀ field ∈ fields, property field.2) (object? key value) := by
  intro cs fields rest reads
  unfold object? at reads
  split at reads
  · obtain ⟨rfl, -⟩ : [] = fields ∧ _ = rest := by simpa using reads
    simp
  · exact fields_yields key yields _ _ fields rest reads

end Lists

theorem keyword_yields : Yields (fun value => Json.ordered value) keyword? := by
  intro cs value rest reads
  unfold keyword? at reads
  split at reads <;> simp only [Option.some.injEq, Prod.mk.injEq, reduceCtorEq] at reads
  all_goals (obtain ⟨rfl, -⟩ := reads; rfl)

/-- Values are read in order, at whatever depth. -/
theorem value_yields (levels : Nat) : Yields (fun value => Json.ordered value) (value? levels) := by
  induction levels using Nat.strongRecOn with
  | ind levels ih =>
    intro cs value rest reads
    unfold value? at reads
    split at reads
    · cases reads
    split at reads
    · obtain ⟨⟨text, behind⟩, -, done⟩ := Option.bind_eq_some_iff.mp reads
      obtain ⟨rfl, -⟩ : Json.str text = value ∧ behind = rest := by simpa using done
      rfl
    split at reads
    · split at reads
      · cases reads
      · next inner =>
        obtain ⟨⟨items, behind⟩, found, done⟩ := Option.bind_eq_some_iff.mp reads
        obtain ⟨rfl, -⟩ : Json.arr items = value ∧ behind = rest := by simpa using done
        rw [Json.ordered, itemsOrdered_iff]
        exact array_yields (ih inner (by omega)) _ items behind found
    split at reads
    · split at reads
      · cases reads
      · next inner =>
        obtain ⟨⟨pairs, behind⟩, found, done⟩ := Option.bind_eq_some_iff.mp reads
        obtain ⟨rfl, -⟩ : Json.object pairs = value ∧ behind = rest := by simpa using done
        exact Fields.ordered_ofList (object_yields text? (ih inner (by omega)) _ pairs behind found)
    split at reads
    · obtain ⟨⟨number, behind⟩, -, done⟩ := Option.bind_eq_some_iff.mp reads
      obtain ⟨rfl, -⟩ : Json.num number = value ∧ behind = rest := by simpa using done
      rfl
    · exact keyword_yields _ value rest reads

end Json.Reader

theorem Json.read?_ordered {text : String} {value : Json} (reads : Json.read? text = some value) :
    value.ordered := by
  unfold Json.read? Json.readNested? at reads
  split at reads
  · next read rest found =>
    split at reads
    · obtain rfl := Option.some.inj reads
      exact Json.Reader.value_yields _ _ _ rest found
    · cases reads
  · cases reads

theorem Json.ordered_of_get? {value found : Json} {key : String} (ordered : value.ordered)
    (reads : value.get? key = some found) : found.ordered := by
  cases value with
  | obj fields => exact Fields.ordered_of_get? ordered reads
  | null | bool | num | str | arr => cases reads

/-- The data of every recorded update is in order. -/
theorem Dispatch.ofLine_ordered {line : String} {dispatch : Dispatch}
    (reads : Dispatch.ofLine line = .ok (some dispatch)) : dispatch.data.ordered := by
  unfold Dispatch.ofLine at reads
  simp only at reads
  split at reads
  · cases reads
  split at reads
  · cases reads
  · next frame found =>
    have ordered := Json.read?_ordered found
    unfold Dispatch.ofFrame at reads
    split at reads
    · cases reads
    · cases reads
    · next name _ =>
      obtain rfl : ⟨name, Json.ofOption (frame.get? "d")⟩ = dispatch := by simpa using reads
      cases data : frame.get? "d" with
      | none => rfl
      | some value => exact Json.ordered_of_get? ordered data
    · cases reads

end GatewayCache
