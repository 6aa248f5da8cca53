import GatewayCache.Json.Basic
import GatewayCache.Proofs.Cells

/-! # Laws of fields

Inserting under a key replaces what is under it and nothing else, and insertions
under different keys commute, in any list of fields. Where the keys ascend, which
is how fields are kept, inserting and erasing keep them ascending.
-/

namespace GatewayCache

theorem Json.eq_obj_of_fields? {value : Json} {object : Fields} (view : value.fields? = some object) :
    value = .obj object := by
  cases value with
  | obj fields => exact congrArg Json.obj (Option.some.inj view)
  | null | bool | num | str | arr => cases view

namespace Fields

theorem get?_cons (key other : String) (value : Json) (rest : Fields) :
    get? ((other, value) :: rest) key = if key = other then some value else get? rest key := by
  by_cases same : key = other
  · simp [get?, same]
  · simp [get?, List.lookup_cons, same, beq_eq_false_iff_ne.mpr same]

@[simp]
theorem get?_insert_self (key : String) (value : Json) (fields : Fields) :
    (fields.insert key value).get? key = some value := by
  induction fields with
  | nil => simp [insert, get?_cons]
  | cons field rest ih =>
    obtain ⟨other, old⟩ := field
    by_cases same : key = other
    · simp [insert, same, get?_cons]
    · by_cases before : key < other <;> simp [insert, same, before, get?_cons, ih]

theorem get?_insert_of_ne {key other : String} (apart : key ≠ other) (value : Json)
    (fields : Fields) : (fields.insert other value).get? key = fields.get? key := by
  induction fields with
  | nil => simp [insert, get?_cons, apart]
  | cons field rest ih =>
    obtain ⟨here, old⟩ := field
    by_cases same : other = here
    · simp [insert, same, get?_cons, same ▸ apart]
    · by_cases before : other < here <;> simp [insert, same, before, get?_cons, apart, ih]

@[simp]
theorem get?_erase_self (key : String) (fields : Fields) : (fields.erase key).get? key = none := by
  induction fields with
  | nil => rfl
  | cons field rest ih =>
    obtain ⟨other, value⟩ := field
    by_cases same : other = key
    · simpa [erase, same] using ih
    · simpa [erase, same, get?_cons, Ne.symm same] using ih

theorem get?_erase_of_ne {key other : String} (apart : key ≠ other) (fields : Fields) :
    (fields.erase other).get? key = fields.get? key := by
  induction fields with
  | nil => rfl
  | cons field rest ih =>
    obtain ⟨here, value⟩ := field
    by_cases same : here = other
    · simpa [erase, same, get?_cons, apart] using ih
    · by_cases found : key = here
      · simp [erase, same, get?_cons, found]
      · simpa [erase, same, get?_cons, found] using ih

theorem erase_insert_self (key : String) (value : Json) (fields : Fields) :
    (fields.insert key value).erase key = fields.erase key := by
  induction fields with
  | nil => simp [insert, erase]
  | cons field rest ih =>
    obtain ⟨other, old⟩ := field
    by_cases same : key = other
    · simp [insert, erase, same]
    · by_cases before : key < other
      · simp [insert, erase, same, before]
      · simpa [insert, erase, same, before, Ne.symm same] using ih

theorem insert_insert (key : String) (new old : Json) (fields : Fields) :
    (fields.insert key old).insert key new = fields.insert key new := by
  induction fields with
  | nil => simp [insert]
  | cons field rest ih =>
    obtain ⟨other, here⟩ := field
    by_cases same : key = other
    · simp [insert, same]
    · by_cases before : key < other <;> simp [insert, same, before, ih]

theorem lt_or_lt_of_ne {key other : String} (apart : key ≠ other) : key < other ∨ other < key := by
  rcases Decidable.em (key < other) with below | notBelow
  · exact .inl below
  · rcases Decidable.em (other < key) with above | notAbove
    · exact .inr above
    · exact absurd (String.le_antisymm (String.not_lt.mp notAbove) (String.not_lt.mp notBelow)) apart

theorem insert_comm_of_lt {key other : String} (below : key < other) (value content : Json)
    (fields : Fields) :
    (fields.insert other content).insert key value = (fields.insert key value).insert other content := by
  have apart : key ≠ other := fun same => String.lt_irrefl other (same ▸ below)
  have notAbove : ¬ other < key := String.lt_asymm below
  induction fields with
  | nil => simp [insert, apart, apart.symm, below, notAbove]
  | cons field rest ih =>
    obtain ⟨here, old⟩ := field
    by_cases atKey : key = here
    · subst atKey
      simp [insert, apart.symm, notAbove]
    by_cases beforeKey : key < here
    · by_cases atOther : other = here
      · subst atOther
        simp [insert, apart, apart.symm, below, notAbove]
      · by_cases beforeOther : other < here <;>
          simp [insert, apart, apart.symm, below, notAbove, atKey, beforeKey, atOther, beforeOther]
    · have notAt : other ≠ here := fun same => beforeKey (same ▸ below)
      have notBefore : ¬ other < here := fun before => beforeKey (String.lt_trans below before)
      simp [insert, atKey, beforeKey, notAt, notBefore, ih]

theorem insert_comm {key other : String} (apart : key ≠ other) (value content : Json)
    (fields : Fields) :
    (fields.insert other content).insert key value = (fields.insert key value).insert other content := by
  rcases lt_or_lt_of_ne apart with below | above
  · exact insert_comm_of_lt below value content fields
  · exact (insert_comm_of_lt above content value fields).symm

/-- The fields of an object as cells. -/
def cells : Cells String Json Fields where
  get? key fields := fields.get? key
  set key value fields := fields.insert key value
  get?_set_self := get?_insert_self
  get?_set_of_ne apart := get?_insert_of_ne apart
  set_set := insert_insert
  set_comm apart := insert_comm apart

end Fields

mutual

/-- Whether every object in a value lists its keys in strictly ascending order. -/
def Json.ordered : Json → Bool
  | .arr items => itemsOrdered items
  | .obj fields => Fields.ordered fields
  | _ => true
termination_by structural value => value

/-- Whether every object in every item lists its keys in strictly ascending order. -/
def itemsOrdered : List Json → Bool
  | [] => true
  | item :: rest => item.ordered && itemsOrdered rest
termination_by structural items => items

/-- Whether the keys ascend strictly, as do those of every object in the values. -/
def Fields.ordered : Fields → Bool
  | [] => true
  | (key, value) :: rest =>
    rest.all (fun field => key < field.1) && value.ordered && Fields.ordered rest
termination_by structural fields => fields

end

theorem itemsOrdered_iff (items : List Json) : itemsOrdered items ↔ ∀ item ∈ items, item.ordered := by
  induction items with
  | nil => simp [itemsOrdered]
  | cons item rest ih => simp [itemsOrdered, ih]

namespace Fields

theorem ordered_cons (key : String) (value : Json) (rest : Fields) :
    ordered ((key, value) :: rest) ↔
      (∀ field ∈ rest, key < field.1) ∧ value.ordered ∧ ordered rest := by
  simp [ordered, and_assoc]

theorem ordered_iff (fields : Fields) :
    fields.ordered ↔ fields.Pairwise (fun a b => a.1 < b.1) ∧ ∀ field ∈ fields, field.2.ordered := by
  induction fields with
  | nil => simp [ordered]
  | cons field rest ih =>
    obtain ⟨key, value⟩ := field
    rw [ordered_cons, ih, List.pairwise_cons]
    simp only [List.mem_cons, forall_eq_or_imp]
    constructor
    · rintro ⟨least, here, ascends, each⟩
      exact ⟨⟨least, ascends⟩, here, each⟩
    · rintro ⟨⟨least, ascends⟩, here, each⟩
      exact ⟨least, here, ascends, each⟩

theorem mem_of_get? {fields : Fields} {key : String} {value : Json}
    (found : fields.get? key = some value) : (key, value) ∈ fields := by
  induction fields with
  | nil => simp [get?] at found
  | cons field rest ih =>
    obtain ⟨other, here⟩ := field
    rw [get?_cons] at found
    split at found
    · next same =>
      simp only [Option.some.injEq] at found
      simp [same, found]
    · exact List.mem_cons_of_mem _ (ih found)

theorem sizeOf_value_lt {fields : Fields} {field : String × Json} (member : field ∈ fields) :
    sizeOf field.2 < sizeOf fields := by
  have inside : sizeOf field < sizeOf fields := List.sizeOf_lt_of_mem member
  obtain ⟨name, value⟩ := field
  simp only [Prod.mk.sizeOf_spec] at inside ⊢
  omega

theorem get?_ne_self {fields : Fields} {key : String} : fields.get? key ≠ some (.obj fields) := by
  intro found
  have smaller := sizeOf_value_lt (mem_of_get? found)
  simp only [Json.obj.sizeOf_spec] at smaller
  omega

theorem ordered_of_get? {fields : Fields} {key : String} {value : Json} (ordered : fields.ordered)
    (found : fields.get? key = some value) : value.ordered :=
  ((ordered_iff fields).mp ordered).2 _ (mem_of_get? found)

theorem mem_insert {key : String} {value : Json} {fields : Fields} {field : String × Json}
    (member : field ∈ fields.insert key value) : field = (key, value) ∨ field ∈ fields := by
  induction fields with
  | nil => simpa [insert] using member
  | cons first rest ih =>
    obtain ⟨other, old⟩ := first
    rw [insert] at member
    split at member
    · rcases List.mem_cons.mp member with here | later
      · exact .inl here
      · exact .inr (List.mem_cons_of_mem _ later)
    · split at member
      · simpa using member
      · rcases List.mem_cons.mp member with here | later
        · exact .inr (by simp [here])
        · exact (ih later).imp_right (List.mem_cons_of_mem _)

theorem ordered_insert {fields : Fields} {key : String} {value : Json} (ordered : fields.ordered)
    (orderedValue : value.ordered) : (fields.insert key value).ordered := by
  induction fields with
  | nil => simp [insert, Fields.ordered, orderedValue]
  | cons field rest ih =>
    obtain ⟨other, old⟩ := field
    obtain ⟨least, orderedOld, orderedRest⟩ := (ordered_cons other old rest).mp ordered
    rw [insert]
    split
    · next same =>
      exact (ordered_cons _ _ _).mpr ⟨same ▸ least, orderedValue, orderedRest⟩
    · next apart =>
      split
      · next below =>
        refine (ordered_cons _ _ _).mpr ⟨?_, orderedValue, ordered⟩
        intro field member
        rcases List.mem_cons.mp member with rfl | later
        · exact below
        · exact String.lt_trans below (least field later)
      · next notBelow =>
        have above : other < key := (lt_or_lt_of_ne apart).resolve_left notBelow
        refine (ordered_cons _ _ _).mpr ⟨?_, orderedOld, ih orderedRest⟩
        intro field member
        rcases mem_insert member with rfl | old
        · exact above
        · exact least field old

theorem ordered_filter {fields : Fields} (ordered : fields.ordered) (keep : String × Json → Bool) :
    Fields.ordered (fields.filter keep) := by
  rw [ordered_iff] at ordered ⊢
  refine ⟨ordered.1.filter keep, fun field member => ordered.2 field (List.mem_filter.mp member).1⟩

theorem ordered_erase {fields : Fields} (ordered : fields.ordered) (key : String) :
    (fields.erase key).ordered :=
  ordered_filter ordered _

end Fields

end GatewayCache
