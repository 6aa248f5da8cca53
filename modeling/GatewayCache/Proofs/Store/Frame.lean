import GatewayCache.Proofs.Cache.Replacement

/-! # Cells that stay as they are

Every change of the store touches a few cells, and all others stay as they are. What
holds of some cells is so kept by any change that stays off them.
-/

namespace GatewayCache.Store

variable {cells : Kind → Key → Prop} {before after store : Store} {kind : Kind} {key : Key}
  {guild : Snowflake}

/-- The cells among some hold the same fields before and after. -/
def Keeps (cells : Kind → Key → Prop) (before after : Store) : Prop :=
  ∀ kind place, cells kind place → after.fieldsAt kind place = before.fieldsAt kind place

theorem Keeps.refl (cells : Kind → Key → Prop) (store : Store) : Keeps cells store store :=
  fun _ _ _ => rfl

theorem Keeps.trans {middle : Store} (first : Keeps cells before middle)
    (second : Keeps cells middle after) : Keeps cells before after :=
  fun kind place among => (second kind place among).trans (first kind place among)

theorem keeps_write (off : ¬ cells kind key) (store : Store) (fields : Fields) :
    Keeps cells store (store.write kind key fields) := by
  intro other place among
  have apart : ¬ (kind, key) = (other, place) := by
    rintro ⟨⟩
    exact off among
  rw [fieldsAt_write, if_neg apart]

theorem keeps_writeAll (config : Config) {records : List Record}
    (off : ∀ record ∈ records, ¬ cells record.kind record.key) (store : Store) :
    Keeps cells store (writeAll config store records) := by
  intro kind place among
  refine fieldsAt_writeAll_of_untouched fun record member _ => ?_
  rintro ⟨⟩
  exact off record member among

theorem keeps_delete (off : ¬ cells kind key) (fit : address? kind key = some key) (store : Store) :
    Keeps cells store (store.delete kind key).2 := by
  intro other place among
  have apart : ¬ (kind, key) = (other, place) := by
    rintro ⟨⟩
    exact off among
  simp only [delete, fit]
  rw [fieldsAt_removeAt, if_neg apart]

theorem keeps_deletes {keyOf : Snowflake → Key}
    (fit : ∀ id, address? kind (keyOf id) = some (keyOf id)) {ids : List Snowflake}
    (off : ∀ id ∈ ids, ¬ cells kind (keyOf id)) (store : Store) :
    Keeps cells store (ids.foldl (fun store id => (store.delete kind (keyOf id)).2) store) := by
  intro other place among
  refine fieldsAt_deletes fit fun id member => ?_
  rintro ⟨⟩
  exact off id member among

variable {field : String} {id : Snowflake}

theorem keeps_setList (off : ¬ cells .guild (.global guild)) (store : Store) (field : String)
    (ids : List Snowflake) : Keeps cells store (store.setList guild field ids) := by
  unfold setList
  split
  · exact keeps_write off store _
  · exact .refl cells store

theorem keeps_link (off : ¬ cells .guild (.global guild)) (store : Store) :
    Keeps cells store (store.link guild field id) := by
  unfold link
  simp only
  split
  · exact .refl cells store
  · exact keeps_setList off store field _

theorem keeps_unlink (off : ¬ cells .guild (.global guild)) (store : Store) :
    Keeps cells store (store.unlink guild field id) := by
  unfold unlink
  simp only
  split
  · exact keeps_setList off store field _
  · exact .refl cells store

end GatewayCache.Store
