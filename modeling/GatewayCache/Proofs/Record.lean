import GatewayCache.Error
import GatewayCache.Proofs.Json.Merge
import GatewayCache.Proofs.Snowflake

/-! # Ids in the fields of records

What a field reads as after an update depends on the update alone where that has the
field, and on the old fields alone where it does not. So records of one identity that
are laid over each other keep it, although a member may tell it in three ways.
-/

namespace GatewayCache

namespace Fields

variable {target update : Fields} {field : String} {id : Snowflake}

theorem ofJson?_laid (old : Option Json) (new : Json) :
    Snowflake.ofJson? (Json.laid old new) = Snowflake.ofJson? new := by
  cases new with
  | obj fields =>
    cases old with
    | none => rfl
    | some old => cases old <;> rfl
  | null | bool | num | str | arr => rw [Json.laid_of_not_object old rfl]

theorem relationId_merge (ordered : update.ordered) (target : Fields) (field : String) :
    (target.merge update).relationId field =
      if update.contains field then update.relationId field else target.relationId field := by
  unfold relationId contains
  rw [get?_merge ordered]
  cases update.get? field with
  | none => simp
  | some new => simp [ofJson?_laid]

theorem relationId_merge_of_contains (ordered : update.ordered) (has : update.contains field)
    (target : Fields) : (target.merge update).relationId field = update.relationId field := by
  rw [relationId_merge ordered, if_pos has]

theorem relationId_merge_of_some (ordered : update.ordered) (reads : update.relationId field = some id)
    (target : Fields) : (target.merge update).relationId field = some id := by
  rw [relationId_merge_of_contains ordered (contains_of_relationId reads), reads]

theorem relationId_merge_of_none (ordered : update.ordered) (absent : update.get? field = none)
    (target : Fields) : (target.merge update).relationId field = target.relationId field := by
  rw [relationId_merge ordered, if_neg (by simp [contains, absent])]

theorem get?_get?_merge (ordered : update.ordered) {inside : String}
    (old : (target.get? field).bind (·.get? inside) = none)
    (new : (update.get? field).bind (·.get? inside) = none) :
    ((target.merge update).get? field).bind (·.get? inside) = none := by
  rw [get?_merge ordered]
  cases found : update.get? field with
  | none => simpa using old
  | some value =>
    simp only [found, Option.bind_some] at new
    simp only [Option.elim_some, Option.bind_some]
    cases value with
    | obj object =>
      have sorted : Fields.ordered object := ordered_of_get? ordered found
      cases before : target.get? field with
      | none => exact new
      | some value =>
        simp only [before, Option.bind_some] at old
        cases value with
        | obj fields =>
          have absent : Fields.get? object inside = none := new
          exact (get?_merge_of_none sorted absent fields).trans old
        | null | bool | num | str | arr => exact new
    | null | bool | num | str | arr => rw [Json.laid_of_not_object _ rfl, new]

end Fields

namespace Kind

variable {kind : Kind} {fields target update : Fields} {id : Snowflake}

theorem identify_eq_ok :
    kind.identify fields = .ok id ↔ (kind.identifier? fields).bind Snowflake.ofJson? = some id := by
  unfold identify
  cases kind.identifier? fields with
  | none => simp
  | some value =>
    cases value with
    | null => simp [Snowflake.ofJson?]
    | bool | num | str | arr | obj =>
      simp only [Snowflake.readJson, Option.bind_some]
      cases Snowflake.ofJson? _ <;> simp

/-- Fields that tell an id, and go on telling it under any update that tells the same. A member whose
user is in its record no longer names it there. -/
def Keyed (kind : Kind) (id : Snowflake) (fields : Fields) : Prop :=
  match kind with
  | .member =>
    (fields.get? "user").bind (·.get? "id") = none ∧
      (fields.relationId "user_id" = some id ∨
        fields.get? "user_id" = none ∧ fields.relationId "id" = some id)
  | .voiceState => fields.relationId "user_id" = some id
  | _ => fields.relationId "id" = some id

theorem identify_of_keyed (keyed : kind.Keyed id fields) : kind.identify fields = .ok id := by
  rw [identify_eq_ok]
  cases kind with
  | member =>
    obtain ⟨noUser, named | ⟨unnamed, own⟩⟩ := keyed
    · obtain ⟨value, found, reads⟩ := Option.bind_eq_some_iff.mp named
      simp [identifier?, noUser, found, reads]
    · simpa [identifier?, noUser, unnamed, Fields.relationId] using own
  | guild | channel | thread | role | user | message | emoji | voiceState | sticker | integration
  | autoModRule => exact keyed

/-- Fields of one identity laid over each other keep it. -/
theorem keyed_merge (ordered : update.ordered) (old : kind.Keyed id target)
    (new : kind.Keyed id update) : kind.Keyed id (target.merge update) := by
  cases kind with
  | member =>
    obtain ⟨noUser, before⟩ := old
    obtain ⟨noNewUser, after⟩ := new
    refine ⟨Fields.get?_get?_merge ordered noUser noNewUser, ?_⟩
    rcases after with named | ⟨unnamed, own⟩
    · exact .inl (Fields.relationId_merge_of_some ordered named target)
    · rcases before with namedBefore | ⟨unnamedBefore, -⟩
      · exact .inl ((Fields.relationId_merge_of_none ordered unnamed target).trans namedBefore)
      · exact .inr ⟨(Fields.get?_merge_of_none ordered unnamed target).trans unnamedBefore,
          Fields.relationId_merge_of_some ordered own target⟩
  | guild | channel | thread | role | user | message | emoji | voiceState | sticker | integration
  | autoModRule => exact Fields.relationId_merge_of_some ordered new target

end Kind

end GatewayCache
