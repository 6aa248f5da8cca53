import GatewayCache.Json.Merge
import GatewayCache.Proofs.Json.Fields

/-! # Laws of merging

Merging lays each value of an update over the field of its key. Its main law is
that a history of updates is settled once it has been merged: merging the same
updates again, in the same order, changes nothing. Objects merge and all else
replaces, so the law is proved by what the history holds for one key: either
something replaces the object along the way, and the second run meets it too, or
all of it is objects, and the law holds one level down.
-/

namespace GatewayCache

/-- A value laid over what is in a field, if there is anything. -/
def Json.laid (old : Option Json) (new : Json) : Json :=
  match old with
  | some old => old.merge new
  | none => new

theorem Json.merge_of_not_object (old : Json) {new : Json} (other : new.fields? = none) :
    old.merge new = new := by
  cases new with
  | obj fields => simp [Json.fields?] at other
  | null | bool | num | str | arr => rfl

theorem Json.laid_of_not_object (old : Option Json) {new : Json} (other : new.fields? = none) :
    Json.laid old new = new := by
  cases old with
  | none => rfl
  | some old => exact old.merge_of_not_object other

namespace Fields

theorem merge_cons (target : Fields) (key : String) (value : Json) (rest : Fields) :
    target.merge ((key, value) :: rest) = (cells.lay Json.laid target (key, value)).merge rest := by
  rw [merge]
  rfl

theorem merge_eq_layAll (target update : Fields) :
    target.merge update = cells.layAll Json.laid target update := by
  induction update generalizing target with
  | nil => simp [merge, Cells.layAll]
  | cons field rest ih => rw [merge_cons, ih, Cells.layAll, Cells.layAll, List.foldl_cons]

/-- Updates merged one after another. -/
def mergeAll (target : Fields) (updates : List Fields) : Fields := updates.foldl merge target

theorem mergeAll_eq_layAll (target : Fields) (updates : List Fields) :
    target.mergeAll updates = cells.layAll Json.laid target updates.flatten := by
  induction updates generalizing target with
  | nil => rfl
  | cons update rest ih =>
    rw [mergeAll, List.foldl_cons, ← mergeAll, ih, merge_eq_layAll, List.flatten_cons,
      Cells.layAll_append]

theorem insert_append {fields : Fields} {key : String} (value : Json)
    (last : ∀ field ∈ fields, field.1 < key) : fields.insert key value = fields ++ [(key, value)] := by
  induction fields with
  | nil => rfl
  | cons field rest ih =>
    obtain ⟨other, old⟩ := field
    have above : other < key := last (other, old) (by simp)
    have apart : key ≠ other := fun same => String.lt_irrefl key (same ▸ above)
    simp [insert, apart, String.lt_asymm above,
      ih (fun field member => last field (by simp [member]))]

theorem get?_eq_none {fields : Fields} {key : String} (absent : ∀ field ∈ fields, field.1 ≠ key) :
    fields.get? key = none := by
  cases found : fields.get? key with
  | none => rfl
  | some value => exact absurd rfl (absent _ (mem_of_get? found))

theorem layAll_eq_append (onto : Option Json → Json → Json) (fresh : ∀ value, onto none value = value)
    {target update : Fields} (ordered : update.ordered)
    (below : ∀ field ∈ target, ∀ other ∈ update, field.1 < other.1) :
    cells.layAll onto target update = target ++ update := by
  induction update generalizing target with
  | nil => simp [Cells.layAll]
  | cons field rest ih =>
    obtain ⟨key, value⟩ := field
    obtain ⟨least, -, orderedRest⟩ := (ordered_cons key value rest).mp ordered
    have last : ∀ field ∈ target, field.1 < key :=
      fun field member => below field member (key, value) (by simp)
    have absent : target.get? key = none :=
      get?_eq_none (fun field member same => String.lt_irrefl key (same ▸ last field member))
    have laid : cells.lay onto target (key, value) = target ++ [(key, value)] := by
      rw [← insert_append value last]
      simp [Cells.lay, cells, absent, fresh]
    rw [Cells.layAll, List.foldl_cons, laid, ← Cells.layAll, ih orderedRest]
    · simp
    · intro field member other later
      rcases List.mem_append.mp member with old | new
      · exact below field old other (by simp [later])
      · obtain rfl := List.mem_singleton.mp new
        exact least other later

theorem ofList_eq_self {fields : Fields} (ordered : fields.ordered) : ofList fields = fields := by
  have below : ∀ field ∈ ([] : Fields), ∀ other ∈ fields, field.1 < other.1 := by simp
  exact layAll_eq_append (fun _ value => value) (fun _ => rfl) ordered below

theorem nil_merge {update : Fields} (ordered : update.ordered) : merge [] update = update := by
  have below : ∀ field ∈ ([] : Fields), ∀ other ∈ update, field.1 < other.1 := by simp
  rw [merge_eq_layAll]
  exact layAll_eq_append Json.laid (fun _ => rfl) ordered below

theorem valuesAt_of_ordered {update : Fields} (ordered : update.ordered) (key : String) :
    valuesAt key update = (update.get? key).toList := by
  induction update with
  | nil => rfl
  | cons field rest ih =>
    obtain ⟨other, value⟩ := field
    obtain ⟨least, -, orderedRest⟩ := (ordered_cons other value rest).mp ordered
    have step : valuesAt key ((other, value) :: rest) =
        if other = key then value :: valuesAt key rest else valuesAt key rest := by
      by_cases same : other = key <;> simp [valuesAt, same]
    rw [step, ih orderedRest, get?_cons]
    by_cases same : other = key
    · have absent : Fields.get? rest key = none :=
        get?_eq_none fun field member equal => String.lt_irrefl other (by
          simpa [equal, same] using least field member)
      simp [same, absent]
    · simp [same, Ne.symm same]

theorem get?_merge {update : Fields} (ordered : update.ordered) (target : Fields) (key : String) :
    (target.merge update).get? key =
      (update.get? key).elim (target.get? key) (fun new => some (Json.laid (target.get? key) new)) := by
  have history := cells.get?_layAll Json.laid key update target
  rw [← merge_eq_layAll, valuesAt_of_ordered ordered] at history
  refine history.trans ?_
  cases update.get? key <;> rfl

theorem get?_merge_of_none {update : Fields} (ordered : update.ordered) {key : String}
    (absent : update.get? key = none) (target : Fields) :
    (target.merge update).get? key = target.get? key := by
  simp [get?_merge ordered, absent]

theorem pile_objects (target : Fields) (updates : List Fields) :
    pile Json.laid (some (.obj target)) (updates.map Json.obj) = some (.obj (target.mergeAll updates)) := by
  induction updates generalizing target with
  | nil => rfl
  | cons update rest ih =>
    simp only [List.map_cons, pile, List.foldl_cons, Json.laid, Json.merge]
    exact ih (target.merge update)

theorem pile_of_not_object (content : Option Json) {before after : List Json} {value : Json}
    (other : value.fields? = none) :
    pile Json.laid content (before ++ value :: after) = pile Json.laid (some value) after := by
  simp [pile, Json.laid_of_not_object _ other]

theorem objects_or_not (values : List Json) :
    (∃ updates : List Fields, values = updates.map Json.obj) ∨
      ∃ before value after, values = before ++ value :: after ∧ value.fields? = none := by
  induction values with
  | nil => exact .inl ⟨[], rfl⟩
  | cons value rest ih =>
    cases shape : value.fields? with
    | none => exact .inr ⟨[], value, rest, rfl, shape⟩
    | some fields =>
      have object := Json.eq_obj_of_fields? shape
      rcases ih with ⟨updates, rfl⟩ | ⟨before, other, after, rfl, plain⟩
      · exact .inl ⟨fields :: updates, by rw [object, List.map_cons]⟩
      · exact .inr ⟨value :: before, other, after, rfl, plain⟩

/-- Whatever is in a field, the first of some objects is laid over an object or starts a new one. -/
theorem pile_started (content : Option Json) {first : Fields} (rest : List Fields)
    (ordered : first.ordered) :
    ∃ target : Fields, pile Json.laid content ((first :: rest).map Json.obj) =
      some (.obj (target.mergeAll (first :: rest))) := by
  have fresh : pile Json.laid (some (.obj first)) (rest.map Json.obj) =
      some (.obj (mergeAll [] (first :: rest))) := by
    rw [pile_objects, mergeAll, mergeAll, List.foldl_cons, nil_merge ordered]
  cases content with
  | none => exact ⟨[], fresh⟩
  | some old =>
    cases old with
    | obj target => exact ⟨target, pile_objects target (first :: rest)⟩
    | null | bool | num | str | arr => exact ⟨[], fresh⟩

/-- The content of a field does not change when its history is laid over it again, given the same of
the objects in the history. -/
theorem pile_pile {values : List Json} (ordered : ∀ value ∈ values, value.ordered)
    (again : ∀ updates : List Fields, values = updates.map Json.obj →
      ∀ target : Fields, (target.mergeAll updates).mergeAll updates = target.mergeAll updates)
    (content : Option Json) :
    pile Json.laid (pile Json.laid content values) values = pile Json.laid content values := by
  rcases objects_or_not values with ⟨updates, rfl⟩ | ⟨before, value, after, rfl, other⟩
  · cases updates with
    | nil => rfl
    | cons first rest =>
      have first_ordered : first.ordered := by
        simpa [Json.ordered] using ordered (.obj first) (by simp)
      obtain ⟨target, made⟩ := pile_started content rest first_ordered
      rw [made, pile_objects, again (first :: rest) rfl]
  · rw [pile_of_not_object _ other, pile_of_not_object _ other]

theorem mem_history {updates : List Fields} {key : String} {value : Json}
    (member : value ∈ valuesAt key updates.flatten) : ∃ update ∈ updates, (key, value) ∈ update := by
  simp only [valuesAt, List.mem_map, List.mem_filter, List.mem_flatten, decide_eq_true_eq] at member
  obtain ⟨⟨key, value⟩, ⟨⟨update, here, inside⟩, rfl⟩, rfl⟩ := member
  exact ⟨update, here, inside⟩

theorem mergeAll_again_below (size : Nat) {updates : List Fields}
    (ordered : ∀ update ∈ updates, update.ordered)
    (small : ∀ update ∈ updates, ∀ field ∈ update, sizeOf field.2 < size) (target : Fields) :
    (target.mergeAll updates).mergeAll updates = target.mergeAll updates := by
  -- The histories of the fields are histories of smaller values.
  induction size generalizing updates target with
  | zero =>
    have empty : updates.flatten = [] := by
      rw [List.eq_nil_iff_forall_not_mem]
      intro field member
      obtain ⟨update, here, inside⟩ := List.mem_flatten.mp member
      exact absurd (small update here field inside) (by simp)
    simp [mergeAll_eq_layAll, empty, Cells.layAll]
  | succ size ih =>
    rw [mergeAll_eq_layAll, mergeAll_eq_layAll]
    apply cells.layAll_layAll
    intro key content
    have each : ∀ value ∈ valuesAt key updates.flatten, value.ordered := by
      intro value member
      obtain ⟨update, here, inside⟩ := mem_history member
      exact ((ordered_iff update).mp (ordered update here)).2 _ inside
    apply pile_pile each
    intro objects same target
    apply ih
    · intro object member
      have object_ordered := each (.obj object) (same ▸ List.mem_map_of_mem member)
      simpa [Json.ordered] using object_ordered
    · intro object member field deep
      obtain ⟨update, here, inside⟩ := mem_history (same ▸ List.mem_map_of_mem member)
      have shrinks : sizeOf (Json.obj object) < size + 1 := small update here _ inside
      have deeper := sizeOf_value_lt deep
      simp only [Json.obj.sizeOf_spec] at shrinks
      omega

/-- Merging a history of updates again changes nothing. -/
theorem mergeAll_mergeAll {updates : List Fields} (ordered : ∀ update ∈ updates, update.ordered)
    (target : Fields) :
    (target.mergeAll updates).mergeAll updates = target.mergeAll updates := by
  apply mergeAll_again_below (sizeOf updates) ordered
  intro update here field inside
  have outer : sizeOf update < sizeOf updates := List.sizeOf_lt_of_mem here
  have inner := sizeOf_value_lt inside
  omega

end Fields

end GatewayCache
