import GatewayCache.Proofs.Placement
import GatewayCache.Proofs.Snowflake
import GatewayCache.Store.GuildList

/-! # Lists that are edited twice

The lists in a guild's record are edited only while there is one, and an edit is
seen by whoever reads the list next. So an id is linked or unlinked once, and no
record of another kind is touched.
-/

namespace GatewayCache.Store

variable {store : Store} {guild id : Snowflake} {field : String} {ids : List Snowflake}

theorem guild?_isSome (store : Store) (guild : Snowflake) :
    (store.guild? guild).isSome = (store.fieldsAt .guild (.global guild)).isSome := by
  rw [guild?, recordAt, Option.isSome_map]

theorem listed_eq (store : Store) (guild : Snowflake) (field : String) :
    store.listed guild field =
      (store.fieldsAt .guild (.global guild)).elim [] (fun fields => fields.relationIds field) := by
  rw [listed, guild?, recordAt]
  cases store.fieldsAt .guild (.global guild) <;> rfl

theorem relationIds_merge (fields : Fields) (field : String) (ids : List Snowflake) :
    (fields.merge [(field, .arr (ids.map Snowflake.toJson))]).relationIds field = ids := by
  have laid : fields.merge [(field, .arr (ids.map Snowflake.toJson))] =
      fields.insert field (.arr (ids.map Snowflake.toJson)) := by
    rw [Fields.merge_cons, Fields.merge]
    have replaced := Json.laid_of_not_object (fields.get? field)
      (rfl : (Json.arr (ids.map Snowflake.toJson)).fields? = none)
    simp only [Cells.lay, Fields.cells, replaced]
  rw [laid, Fields.relationIds, Fields.get?_insert_self]
  exact Snowflake.filterMap_ofJson?_toJson ids

theorem write_write {fields : Fields} (ordered : fields.ordered) (store : Store) (kind : Kind)
    (address : Key) :
    (store.write kind address fields).write kind address fields =
      store.write kind address fields := by
  have all : ∀ value ∈ [fields], value.ordered := by simpa using ordered
  have again := pile_onto_pile all (store.fieldsAt kind address)
  have settled : onto (some (onto (store.fieldsAt kind address) fields)) fields =
      onto (store.fieldsAt kind address) fields := Option.some.inj again
  rw [write_eq_set (store.write kind address fields), fieldsAt_write, if_pos rfl, settled,
    write_eq_set, set_set]

theorem entry_ordered (field : String) (ids : List Snowflake) :
    Fields.ordered [(field, .arr (ids.map Snowflake.toJson))] := by
  simp [Fields.ordered, Snowflake.list_ordered]

theorem setList_of_absent (absent : (store.guild? guild).isSome = false) :
    store.setList guild field ids = store := by
  rw [setList, absent]
  rfl

theorem setList_of_present (present : (store.guild? guild).isSome) :
    store.setList guild field ids =
      store.write .guild (.global guild) [(field, .arr (ids.map Snowflake.toJson))] := by
  rw [setList, if_pos present]

theorem guild?_isSome_setList :
    ((store.setList guild field ids).guild? guild).isSome = (store.guild? guild).isSome := by
  cases present : (store.guild? guild).isSome with
  | false => rw [setList_of_absent present, present]
  | true => rw [setList_of_present present, guild?_isSome, fieldsAt_write, if_pos rfl]; rfl

theorem setList_setList :
    (store.setList guild field ids).setList guild field ids = store.setList guild field ids := by
  cases present : (store.guild? guild).isSome with
  | false => rw [setList_of_absent present, setList_of_absent present]
  | true =>
    rw [setList_of_present (guild?_isSome_setList.trans present), setList_of_present present,
      write_write (entry_ordered field ids)]

theorem fieldsAt_setList {kind : Kind} (other : kind ≠ .guild) (place : Key) :
    (store.setList guild field ids).fieldsAt kind place = store.fieldsAt kind place := by
  cases present : (store.guild? guild).isSome with
  | false => rw [setList_of_absent present]
  | true =>
    have apart : ¬ (Kind.guild, Key.global guild) = (kind, place) :=
      fun same => other (congrArg Prod.fst same).symm
    rw [setList_of_present present, fieldsAt_write, if_neg apart]

theorem listed_setList :
    (store.setList guild field ids).listed guild field =
      if (store.guild? guild).isSome then ids else [] := by
  cases present : (store.guild? guild).isSome with
  | false =>
    rw [setList_of_absent present]
    rw [guild?_isSome, Option.isSome_eq_false_iff, Option.isNone_iff_eq_none] at present
    rw [listed_eq, present]
    rfl
  | true =>
    rw [setList_of_present present, listed_eq, fieldsAt_write, if_pos rfl]
    rw [guild?_isSome, Option.isSome_iff_exists] at present
    obtain ⟨fields, found⟩ := present
    rw [found]
    exact relationIds_merge fields field ids

theorem fieldsAt_link {kind : Kind} (other : kind ≠ .guild) (place : Key) :
    (store.link guild field id).fieldsAt kind place = store.fieldsAt kind place := by
  unfold link
  simp only
  split
  · rfl
  · exact fieldsAt_setList other place

theorem link_of_listed (listed : id ∈ store.listed guild field) :
    store.link guild field id = store := by
  simp [link, listed]

theorem link_of_not_listed (new : id ∉ store.listed guild field) :
    store.link guild field id = store.setList guild field (store.listed guild field ++ [id]) := by
  simp [link, new]

theorem unlink_of_listed (listed : id ∈ store.listed guild field) :
    store.unlink guild field id =
      store.setList guild field ((store.listed guild field).filter (· != id)) := by
  simp [unlink, listed]

theorem unlink_of_not_listed (absent : id ∉ store.listed guild field) :
    store.unlink guild field id = store := by
  simp [unlink, absent]

/-- What is linked is listed from then on, unless there is no guild to list it. -/
theorem link_link : (store.link guild field id).link guild field id = store.link guild field id := by
  by_cases here : id ∈ store.listed guild field
  · rw [link_of_listed here, link_of_listed here]
  · rw [link_of_not_listed here]
    cases present : (store.guild? guild).isSome with
    | true =>
      apply link_of_listed
      rw [listed_setList, if_pos present]
      simp
    | false =>
      rw [setList_of_absent present, link_of_not_listed here, setList_of_absent present]

theorem not_mem_listed_unlink : id ∉ (store.unlink guild field id).listed guild field := by
  by_cases here : id ∈ store.listed guild field
  · rw [unlink_of_listed here, listed_setList]
    split <;> simp
  · rw [unlink_of_not_listed here]
    exact here

theorem listed_delete {kind : Kind} (other : kind ≠ .guild) (key : Key) :
    (store.delete kind key).2.listed guild field = store.listed guild field := by
  rw [listed_eq, listed_eq, fieldsAt_delete_of_ne other]

theorem unlink_of_deleted {kind : Kind} (other : kind ≠ .guild) (key : Key) :
    ((store.unlink guild field id).delete kind key).2.unlink guild field id =
      ((store.unlink guild field id).delete kind key).2 := by
  apply unlink_of_not_listed
  rw [listed_delete other]
  exact not_mem_listed_unlink

end GatewayCache.Store
