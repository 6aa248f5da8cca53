import GatewayCache.Json.History
import GatewayCache.Proofs.Json.Merge

/-! # What a history of updates comes to

Laying one more update over a value keeps it what the history of its key says, and so
do all updates in turn. The objects of a closing run are a history again, one level
down, so the same holds at the end of every path.
-/

namespace GatewayCache

namespace Json

variable {values : List Json} {value : Json} {object : Fields}

theorem closing_concat_object (values : List Json) (object : Fields) :
    closing (values ++ [.obj object]) = closing values ++ [object] := by
  have objects : (Json.obj object).isObject := rfl
  rw [closing, List.rtakeWhile_concat_pos _ _ _ objects, List.filterMap_append]
  rfl

theorem closing_concat_plain (plain : value.isObject = false) (values : List Json) :
    closing (values ++ [value]) = [] := by
  have none : ¬ value.isObject := by simp [plain]
  rw [closing, List.rtakeWhile_concat_neg _ _ _ none]
  rfl

theorem mem_of_mem_closing (member : object ∈ closing values) : .obj object ∈ values := by
  obtain ⟨value, inside, view⟩ := List.mem_filterMap.mp member
  rw [← eq_obj_of_fields? view]
  exact (List.rtakeWhile_suffix ..).mem inside

/-- The value that a history of one key comes to. -/
def settled? (values : List Json) : Option Json :=
  values.getLast?.map fun last =>
    if last.isObject then .obj ((closing values).foldl Fields.merge []) else last

theorem settled?_concat_object (values : List Json) (object : Fields) :
    settled? (values ++ [.obj object]) =
      some (.obj (((closing values).foldl Fields.merge []).merge object)) := by
  simp [settled?, closing_concat_object, Json.isObject, Json.fields?]

/-- Laying an object over what a history came to goes on with its closing run. -/
theorem laid_settled? (ordered : object.ordered) (values : List Json) :
    Json.laid (settled? values) (.obj object) =
      .obj (((closing values).foldl Fields.merge []).merge object) := by
  rcases List.eq_nil_or_concat values with rfl | ⟨before, last, rfl⟩
  · exact congrArg Json.obj (Fields.nil_merge ordered).symm
  · cases shape : last.isObject with
    | true => simp [settled?, shape, Json.laid, Json.merge]
    | false =>
      have fresh : Json.merge last (.obj object) = .obj object := by
        cases last <;> first | rfl | cases shape
      simp [settled?, shape, Json.laid, fresh, closing_concat_plain shape, Fields.nil_merge ordered]

theorem pile_eq_settled? (ordered : ∀ value ∈ values, value.ordered) :
    pile Json.laid none values = settled? values := by
  induction values using List.reverseRecOn with
  | nil => rfl
  | append_singleton before last ih =>
    have earlier := ih fun value member => ordered value (by simp [member])
    have one : pile Json.laid none (before ++ [last]) = some (Json.laid (settled? before) last) := by
      simp [← earlier, pile]
    rw [one]
    cases last with
    | obj object =>
      have sorted : Fields.ordered object := by
        simpa [Json.ordered] using ordered (.obj object) (by simp)
      rw [laid_settled? sorted, settled?_concat_object]
    | null | bool | num | str | arr =>
      rw [Json.laid_of_not_object _ rfl]
      simp [settled?, Json.isObject, Json.fields?]

end Json

namespace Fields

variable {updates : List Fields} {key : String} {path : List String} {inner : Fields}

theorem valuesAt_eq_carried (ordered : ∀ update ∈ updates, update.ordered) (key : String) :
    valuesAt key updates.flatten = carried updates key := by
  induction updates with
  | nil => rfl
  | cons update rest ih =>
    have later := ih fun other member => ordered other (by simp [member])
    have first := valuesAt_of_ordered (ordered update (by simp)) key
    have both : valuesAt key (update :: rest).flatten =
        valuesAt key update ++ valuesAt key rest.flatten := by
      simp [valuesAt]
    rw [both, first, later]
    cases here : update.get? key <;> simp [carried, here]

theorem ordered_of_mem_carried (ordered : ∀ update ∈ updates, update.ordered) {value : Json}
    (member : value ∈ carried updates key) : value.ordered := by
  obtain ⟨update, here, found⟩ := List.mem_filterMap.mp member
  exact ordered_of_get? (ordered update here) found

theorem get?_merged (ordered : ∀ update ∈ updates, update.ordered) (key : String) :
    (updates.foldl merge []).get? key = Json.settled? (carried updates key) := by
  have history := cells.get?_layAll Json.laid key updates.flatten []
  rw [valuesAt_eq_carried ordered, ← mergeAll_eq_layAll] at history
  rw [← Json.pile_eq_settled? fun value member => ordered_of_mem_carried ordered member]
  exact history

theorem carried_eq_nil : carried updates key = [] ↔ ∀ update ∈ updates, update.get? key = none := by
  simp [carried, List.filterMap_eq_nil_iff]

/-- Updates merged into nothing leave what their history tells. -/
theorem outcome_merged (ordered : ∀ update ∈ updates, update.ordered) :
    Outcome updates (updates.foldl merge []) where
  present key := by
    have absent : Json.settled? (carried updates key) = none ↔ carried updates key = [] := by
      simp [Json.settled?]
    rw [contains, get?_merged ordered, ← Option.ne_none_iff_isSome, ne_eq, absent, carried_eq_nil]
    simp [contains, Option.isSome_iff_ne_none]
  plain key value last other := by
    simp [get?_merged ordered, Json.settled?, last, other]
  merged key object last := by
    simp [get?_merged ordered, Json.settled?, last, Json.isObject, Json.fields?, historyAt]

theorem historyAt_ordered (ordered : ∀ update ∈ updates, update.ordered) (key : String) :
    ∀ object ∈ historyAt updates key, object.ordered := by
  intro object member
  have sorted := ordered_of_mem_carried ordered (Json.mem_of_mem_closing member)
  simpa [Json.ordered] using sorted

theorem get?_merged_object (ordered : ∀ update ∈ updates, update.ordered)
    (found : (updates.foldl merge []).get? key = some (.obj inner)) :
    inner = (historyAt updates key).foldl merge [] := by
  rw [get?_merged ordered, Json.settled?, Option.map_eq_some_iff] at found
  obtain ⟨last, -, value⟩ := found
  split at value
  · exact (Json.obj.inj value).symm
  · next plain =>
    rw [value] at plain
    exact absurd rfl plain

theorem inside?_merged (ordered : ∀ update ∈ updates, update.ordered)
    (reached : (updates.foldl merge []).inside? path = some inner) :
    (∀ update ∈ history updates path, update.ordered) ∧
      inner = (history updates path).foldl merge [] := by
  induction path generalizing updates with
  | nil => exact ⟨ordered, (Option.some.inj reached).symm⟩
  | cons key path ih =>
    obtain ⟨object, here, deeper⟩ := Option.bind_eq_some_iff.mp reached
    obtain ⟨value, found, view⟩ := Option.bind_eq_some_iff.mp here
    obtain rfl := Json.eq_obj_of_fields? view
    obtain rfl := get?_merged_object ordered found
    exact ih (historyAt_ordered ordered key) deeper

theorem contains_inside?_merge {target update before after : Fields} (ordered : update.ordered)
    (old : target.inside? path = some before) (new : (target.merge update).inside? path = some after)
    (here : before.contains key) : after.contains key := by
  induction path generalizing target update with
  | nil =>
    obtain rfl := Option.some.inj old
    obtain rfl := Option.some.inj new
    rw [contains, get?_merge ordered]
    cases update.get? key with
    | none => exact here
    | some value => rfl
  | cons step path ih =>
    obtain ⟨outer, reads, deeper⟩ := Option.bind_eq_some_iff.mp old
    obtain ⟨value, found, view⟩ := Option.bind_eq_some_iff.mp reads
    obtain rfl := Json.eq_obj_of_fields? view
    rw [inside?, get?_merge ordered, found] at new
    cases brought : update.get? step with
    | none =>
      simp only [brought, Option.elim_none, Option.bind_some, Json.fields?, deeper] at new
      rwa [← Option.some.inj new]
    | some value =>
      simp only [brought, Option.elim_some, Option.bind_some] at new
      cases value with
      | obj object =>
        exact ih (ordered_of_get? ordered brought) deeper new
      | null | bool | num | str | arr => cases new

end Fields

end GatewayCache
