import GatewayCache.Placement
import GatewayCache.Proofs.Json.Merge

/-! # The cells of a store

A store holds one cell for every kind and address, on the shelf of the address's
guild or on the global one. Every operation is described by what it does to the
cells: the shelves on which they stand do not show.
-/

namespace GatewayCache

namespace Key

theorem eq_of_parts {key other : Key} (guild : key.guild? = other.guild?) (id : key.id = other.id) :
    key = other := by
  cases key <;> cases other <;> simp_all [guild?, Key.id]

end Key

namespace Store

/-- The store with the fields of a cell replaced. -/
def set (kind : Kind) (address : Key) (fields : Fields) (store : Store) : Store :=
  let slot : Slot := ⟨kind, address.id⟩
  match address.guild? with
  | none => { store with globals := store.globals.insert slot fields }
  | some guild =>
    { store with scopes := store.scopes.insert guild ((store.shelf (some guild)).insert slot fields) }

theorem shelf_set (kind : Kind) (address : Key) (fields : Fields) (store : Store)
    (guild : Option Snowflake) :
    (store.set kind address fields).shelf guild =
      if address.guild? = guild then (store.shelf guild).insert ⟨kind, address.id⟩ fields
      else store.shelf guild := by
  rcases address with id | ⟨owner, id⟩
  · cases guild <;> simp [set, shelf, Key.guild?, Key.id]
  · cases guild with
    | none => simp [set, shelf, Key.guild?]
    | some guild =>
      by_cases same : owner = guild
      · simp [set, shelf, Key.guild?, same, Key.id]
      · simp [set, shelf, Key.guild?, same, Std.ExtTreeMap.getElem?_insert]

theorem fieldsAt_set (kind : Kind) (address : Key) (fields : Fields) (store : Store) (other : Kind)
    (place : Key) :
    (store.set kind address fields).fieldsAt other place =
      if (kind, address) = (other, place) then some fields else store.fieldsAt other place := by
  unfold fieldsAt
  rw [shelf_set]
  by_cases sameGuild : address.guild? = place.guild?
  · rw [if_pos sameGuild, Std.ExtTreeMap.getElem?_insert]
    by_cases sameSlot : Slot.mk kind address.id = ⟨other, place.id⟩
    · obtain ⟨rfl, sameId⟩ := Slot.mk.inj sameSlot
      obtain rfl := Key.eq_of_parts sameGuild sameId
      simp
    · have apart : ¬ (kind, address) = (other, place) := by
        rintro same
        obtain ⟨rfl, rfl⟩ := Prod.mk.inj same
        exact sameSlot rfl
      simp [sameSlot, apart]
  · have apart : ¬ (kind, address) = (other, place) := by
      rintro same
      obtain ⟨rfl, rfl⟩ := Prod.mk.inj same
      exact sameGuild rfl
    simp [sameGuild, apart]

theorem ext_parts {store other : Store} (globals : store.globals = other.globals)
    (scopes : ∀ guild : Snowflake, store.scopes[guild]? = other.scopes[guild]?) : store = other := by
  cases store
  cases other
  simp only [Store.mk.injEq]
  exact ⟨globals, Std.ExtTreeMap.ext_getElem? scopes⟩

section Maps

variable {κ α : Type} [Ord κ] [Std.TransOrd κ] [Std.LawfulEqOrd κ]

theorem insert_insert_self (key : κ) (new old : α) (map : Std.ExtTreeMap κ α) :
    (map.insert key old).insert key new = map.insert key new := by
  apply Std.ExtTreeMap.ext_getElem?
  intro other
  simp only [Std.ExtTreeMap.getElem?_insert]
  split <;> rfl

theorem insert_insert_comm {first second : κ} (apart : first ≠ second) (a b : α)
    (map : Std.ExtTreeMap κ α) :
    (map.insert second b).insert first a = (map.insert first a).insert second b := by
  apply Std.ExtTreeMap.ext_getElem?
  intro key
  simp only [Std.ExtTreeMap.getElem?_insert, Std.LawfulEqCmp.compare_eq_iff_eq]
  by_cases here : first = key <;> by_cases there : second = key <;> simp_all

theorem insert_of_getElem? {key : κ} {value : α} {map : Std.ExtTreeMap κ α}
    (found : map[key]? = some value) : map.insert key value = map := by
  apply Std.ExtTreeMap.ext_getElem?
  intro other
  rw [Std.ExtTreeMap.getElem?_insert]
  split
  · next same =>
    obtain rfl := Std.LawfulEqCmp.compare_eq_iff_eq.mp same
    exact found.symm
  · rfl

theorem alter_eq_insert (key : κ) (change : Option α → α) (map : Std.ExtTreeMap κ α) :
    map.alter key (fun old => some (change old)) = map.insert key (change map[key]?) := by
  apply Std.ExtTreeMap.ext_getElem?
  intro other
  simp only [Std.ExtTreeMap.getElem?_alter, Std.ExtTreeMap.getElem?_insert,
    Std.LawfulEqCmp.compare_eq_iff_eq]

theorem getElem?_erase_of_ne {key other : κ} (apart : key ≠ other) (map : Std.ExtTreeMap κ α) :
    (map.erase key)[other]? = map[other]? := by
  rw [Std.ExtTreeMap.getElem?_erase, if_neg (mt Std.LawfulEqCmp.compare_eq_iff_eq.mp apart)]

theorem erase_erase_self (key : κ) (map : Std.ExtTreeMap κ α) :
    (map.erase key).erase key = map.erase key := by
  apply Std.ExtTreeMap.ext_getElem?
  intro other
  simp only [Std.ExtTreeMap.getElem?_erase]
  split <;> rfl

theorem getElem?_filter_keys (keep : κ → Bool) (key : κ) (map : Std.ExtTreeMap κ α) :
    (map.filter (fun key _ => keep key))[key]? = if keep key then map[key]? else none := by
  rw [Std.ExtTreeMap.getElem?_filter']
  cases map[key]? <;> cases keep key <;> rfl

omit [Std.LawfulEqOrd κ] in
theorem mem_iff_getElem? {key : κ} {map : Std.ExtTreeMap κ α} :
    key ∈ map ↔ ∃ value, map[key]? = some value := by
  rw [← Std.ExtTreeMap.isSome_getElem?_iff_mem, Option.isSome_iff_exists]

theorem mem_filter_iff {keep : κ → α → Bool} {key : κ} {map : Std.ExtTreeMap κ α} :
    key ∈ map.filter keep ↔ ∃ value, map[key]? = some value ∧ keep key value := by
  rw [mem_iff_getElem?, Std.ExtTreeMap.getElem?_filter']
  simp only [Option.filter_eq_some_iff]

theorem size_eq_length {keys : List κ} {map : Std.ExtTreeMap κ α} (nodup : keys.Nodup)
    (same : ∀ key, key ∈ keys ↔ key ∈ map) : map.size = keys.length := by
  rw [← Std.ExtTreeMap.length_keys]
  apply List.Perm.length_eq
  rw [List.perm_ext_iff_of_nodup Std.ExtTreeMap.nodup_keys nodup]
  intro key
  rw [Std.ExtTreeMap.mem_keys, same]

omit [Std.LawfulEqOrd κ] in
theorem size_filter_add (keep : κ → α → Bool) (map : Std.ExtTreeMap κ α) :
    map.size = (map.filter keep).size + (map.filter (fun key value => !keep key value)).size := by
  simp only [← Std.ExtTreeMap.length_toList, Std.ExtTreeMap.toList_filter,
    ← List.countP_eq_length_filter]
  rw [List.length_eq_countP_add_countP (fun entry => keep entry.1 entry.2)]
  simp

end Maps

theorem set_set (kind : Kind) (address : Key) (new old : Fields) (store : Store) :
    (store.set kind address old).set kind address new = store.set kind address new := by
  rcases address with id | ⟨owner, id⟩
  · simp [set, Key.guild?, insert_insert_self]
  · simp [set, Key.guild?, shelf, insert_insert_self]

theorem set_comm {kind other : Kind} {address place : Key} (apart : (kind, address) ≠ (other, place))
    (fields content : Fields) (store : Store) :
    (store.set other place content).set kind address fields =
      (store.set kind address fields).set other place content := by
  have slots : address.guild? = place.guild? → Slot.mk kind address.id ≠ ⟨other, place.id⟩ := by
    intro sameGuild sameSlot
    obtain ⟨rfl, sameId⟩ := Slot.mk.inj sameSlot
    exact apart (by rw [Key.eq_of_parts sameGuild sameId])
  rcases address with id | ⟨owner, id⟩ <;> rcases place with number | ⟨holder, number⟩
  · simp [set, Key.guild?, insert_insert_comm (slots rfl)]
  · rfl
  · rfl
  · by_cases same : owner = holder
    · subst same
      simp [set, Key.guild?, shelf, insert_insert_self, insert_insert_comm (slots rfl)]
    · simp [set, Key.guild?, shelf, insert_insert_comm same, Std.ExtTreeMap.getElem?_insert, same,
        Ne.symm same]

/-- The records as cells, by kind and address. -/
def cells : Cells (Kind × Key) Fields Store where
  get? place store := store.fieldsAt place.1 place.2
  set place fields store := store.set place.1 place.2 fields
  get?_set_self place fields store := by simp [fieldsAt_set]
  get?_set_of_ne apart fields store := by simp [fieldsAt_set, Ne.symm apart]
  set_set place := set_set place.1 place.2
  set_comm apart := set_comm apart

theorem held {kind : Kind} {address : Key} {fields : Fields} {store : Store}
    (found : store.fieldsAt kind address = some fields) : store.set kind address fields = store := by
  rcases address with id | ⟨owner, id⟩
  · have here : store.globals[Slot.mk kind id]? = some fields := found
    simp [set, Key.guild?, Key.id, insert_of_getElem? here]
  · cases shelved : store.scopes[owner]? with
    | none => simp [fieldsAt, Key.guild?, shelf, shelved] at found
    | some shelf =>
      have here : shelf[Slot.mk kind id]? = some fields := by
        simpa [fieldsAt, Key.guild?, Key.id, Store.shelf, shelved] using found
      simp [set, Key.guild?, Key.id, Store.shelf, shelved, insert_of_getElem? here,
        insert_of_getElem? shelved]

/-- Fields laid over those of a record, if there is one. -/
def onto (old : Option Fields) (new : Fields) : Fields :=
  old.elim new (fun before => before.merge new)

theorem shelf_write (shelf : Shelf) (slot : Slot) (fields : Fields) :
    shelf.write slot fields = shelf.insert slot (onto shelf[slot]? fields) :=
  alter_eq_insert slot (fun old => onto old fields) shelf

theorem write_eq_set (store : Store) (kind : Kind) (address : Key) (fields : Fields) :
    store.write kind address fields =
      store.set kind address (onto (store.fieldsAt kind address) fields) := by
  rcases address with id | ⟨owner, id⟩
  · simp [write, set, Key.guild?, Key.id, fieldsAt, shelf, shelf_write]
  · have altered := alter_eq_insert owner
      (fun shelf : Option Shelf => (shelf.getD ∅).write ⟨kind, id⟩ fields) store.scopes
    simp only [write, set, Key.guild?, Key.id, fieldsAt, shelf, altered]
    rw [shelf_write]

theorem write_eq_lay (store : Store) (kind : Kind) (address : Key) (fields : Fields) :
    store.write kind address fields = cells.lay onto store ((kind, address), fields) :=
  write_eq_set store kind address fields

/-- The cell that a record goes to, with its fields. -/
def entryOf (record : Record) : (Kind × Key) × Fields := ((record.kind, record.key), record.fields)

/-- The records to write under a configuration, as entries of cells. -/
def entriesOf (config : Config) (records : List Record) : List ((Kind × Key) × Fields) :=
  (records.filter (fun record => config.stores record.kind)).map entryOf

theorem writeAll_eq_layAll (config : Config) (store : Store) (records : List Record) :
    writeAll config store records = cells.layAll onto store (entriesOf config records) := by
  rw [writeAll, Cells.layAll, entriesOf, List.foldl_map]
  congr 1
  funext store record
  exact write_eq_lay store record.kind record.key record.fields

theorem fieldsAt_write (store : Store) (kind : Kind) (address : Key) (fields : Fields) (other : Kind)
    (place : Key) :
    (store.write kind address fields).fieldsAt other place =
      if (kind, address) = (other, place) then some (onto (store.fieldsAt kind address) fields)
      else store.fieldsAt other place := by
  rw [write_eq_set, fieldsAt_set]

theorem shelf_removeAt (store : Store) (kind : Kind) (address : Key) (guild : Option Snowflake) :
    (store.removeAt kind address).shelf guild =
      if address.guild? = guild then (store.shelf guild).erase ⟨kind, address.id⟩
      else store.shelf guild := by
  rcases address with id | ⟨owner, id⟩
  · cases guild <;> simp [removeAt, shelf, Key.guild?, Key.id]
  · cases guild with
    | none => simp [removeAt, shelf, Key.guild?]
    | some guild =>
      by_cases same : owner = guild
      · subst same
        cases shelved : store.scopes[owner]? <;>
          simp [removeAt, shelf, Key.guild?, Key.id, shelved]
      · simp [removeAt, shelf, Key.guild?, same, Std.ExtTreeMap.getElem?_alter]

theorem fieldsAt_removeAt (store : Store) (kind : Kind) (address : Key) (other : Kind) (place : Key) :
    (store.removeAt kind address).fieldsAt other place =
      if (kind, address) = (other, place) then none else store.fieldsAt other place := by
  unfold fieldsAt
  rw [shelf_removeAt]
  by_cases sameGuild : address.guild? = place.guild?
  · rw [if_pos sameGuild, Std.ExtTreeMap.getElem?_erase]
    by_cases sameSlot : Slot.mk kind address.id = ⟨other, place.id⟩
    · obtain ⟨rfl, sameId⟩ := Slot.mk.inj sameSlot
      obtain rfl := Key.eq_of_parts sameGuild sameId
      simp
    · have apart : ¬ (kind, address) = (other, place) := by
        rintro same
        obtain ⟨rfl, rfl⟩ := Prod.mk.inj same
        exact sameSlot rfl
      simp [sameSlot, apart]
  · have apart : ¬ (kind, address) = (other, place) := by
      rintro same
      obtain ⟨rfl, rfl⟩ := Prod.mk.inj same
      exact sameGuild rfl
    simp [sameGuild, apart]

theorem removeAt_removeAt (store : Store) (kind : Kind) (address : Key) :
    (store.removeAt kind address).removeAt kind address = store.removeAt kind address := by
  rcases address with id | ⟨owner, id⟩
  · simp [removeAt, Key.guild?, erase_erase_self]
  · refine ext_parts rfl fun guild => ?_
    simp only [removeAt, Key.guild?, Std.ExtTreeMap.getElem?_alter]
    by_cases same : owner = guild
    · simp only [same, Std.ReflCmp.compare_self, if_true]
      cases store.scopes[guild]? <;> simp [erase_erase_self]
    · simp [same]

theorem delete_delete (store : Store) (kind : Kind) (key : Key) :
    ((store.delete kind key).2.delete kind key).2 = (store.delete kind key).2 := by
  unfold delete
  cases address? kind key with
  | none => rfl
  | some address => exact removeAt_removeAt store kind address

theorem fieldsAt_delete_of_ne {kind other : Kind} (apart : kind ≠ other) (store : Store)
    (key place : Key) :
    (store.delete kind key).2.fieldsAt other place = store.fieldsAt other place := by
  unfold delete
  cases address? kind key with
  | none => rfl
  | some address =>
    have cells : ¬ (kind, address) = (other, place) := fun same => apart (congrArg Prod.fst same)
    simp only
    rw [fieldsAt_removeAt, if_neg cells]

theorem fieldsAt_deleteGuild (store : Store) (guild : Snowflake) (kind : Kind) (place : Key) :
    (store.deleteGuild guild).2.fieldsAt kind place =
      if place.guild? = some guild ∨ (kind, place) = (.guild, .global guild) then none
      else store.fieldsAt kind place := by
  rcases place with id | ⟨owner, id⟩
  · by_cases same : Slot.mk .guild guild = ⟨kind, id⟩
    · obtain ⟨rfl, rfl⟩ := Slot.mk.inj same
      simp [fieldsAt, deleteGuild, shelf, Key.guild?, Key.id]
    · have apart : ¬ (kind = .guild ∧ id = guild) := by
        rintro ⟨rfl, rfl⟩
        exact same rfl
      have kept : (store.globals.erase ⟨.guild, guild⟩)[Slot.mk kind id]? =
          store.globals[Slot.mk kind id]? := getElem?_erase_of_ne same store.globals
      simpa [fieldsAt, deleteGuild, shelf, Key.guild?, Key.id, apart] using kept
  · by_cases same : owner = guild
    · simp [fieldsAt, deleteGuild, shelf, Key.guild?, same]
    · simp [fieldsAt, deleteGuild, shelf, Key.guild?, same, Ne.symm same,
        Std.ExtTreeMap.getElem?_erase]

theorem fieldsAt_deleteByGuild (store : Store) (kind : Kind) (guild : Snowflake) (other : Kind)
    (place : Key) :
    (store.deleteByGuild kind guild).2.fieldsAt other place =
      (store.fieldsAt other place).filter (fun fields =>
        place.guild?.isSome || !namesGuild kind guild ⟨other, place.id⟩ fields) := by
  rcases place with id | ⟨owner, id⟩
  · simp only [fieldsAt, deleteByGuild, shelf, Key.guild?, Key.id, Std.ExtTreeMap.getElem?_filter']
    rfl
  · simp only [fieldsAt, deleteByGuild, shelf, Key.guild?, Key.id, Option.isSome_some, Bool.true_or]
    cases (store.scopes[owner]?.getD ∅)[Slot.mk other id]? <;> rfl

end Store

theorem Snowflake.compare_eq_lt (a b : Snowflake) : compare a b = .lt ↔ a.value < b.value := by
  change compareOfLessAndEq a.value b.value = .lt ↔ _
  exact compareOfLessAndEq_eq_lt

theorem Snowflake.eq_of_ascending {first second : List Snowflake}
    (ascends : first.Pairwise (fun a b => a.value < b.value))
    (rises : second.Pairwise (fun a b => a.value < b.value))
    (same : ∀ id, id ∈ first ↔ id ∈ second) : first = second := by
  have distinct {ids : List Snowflake} (up : ids.Pairwise (fun a b => a.value < b.value)) :
      ids.Nodup := by
    refine up.imp ?_
    rintro a b below rfl
    exact UInt64.lt_irrefl _ below
  refine List.Perm.eq_of_pairwise ?_ ascends rises
    ((List.perm_ext_iff_of_nodup (distinct ascends) (distinct rises)).mpr same)
  intro a b _ _ below above
  exact absurd below (UInt64.lt_asymm above)

namespace Shelf

theorem mem_ids {shelf : Shelf} {kind : Kind} {id : Snowflake} :
    id ∈ shelf.ids kind ↔ Slot.mk kind id ∈ shelf := by
  simp only [ids, List.mem_map, List.mem_filter, Std.ExtTreeMap.mem_keys, decide_eq_true_eq]
  constructor
  · rintro ⟨⟨kind, id⟩, ⟨there, rfl⟩, rfl⟩
    exact there
  · intro there
    exact ⟨⟨kind, id⟩, ⟨there, rfl⟩, rfl⟩

theorem ids_ascending (shelf : Shelf) (kind : Kind) :
    (shelf.ids kind).Pairwise (fun a b => a.value < b.value) := by
  rw [ids, List.pairwise_map, List.pairwise_filter]
  refine Std.ExtTreeMap.ordered_keys.imp ?_
  intro a b below sameKind otherKind
  simp only [decide_eq_true_eq] at sameKind otherKind
  have slots : (compare a.kind b.kind).then (compare a.id b.id) = .lt := below
  have equal : compare kind kind = .eq := Std.ReflCmp.compare_self
  rw [sameKind, otherKind, equal, Ordering.then] at slots
  exact (Snowflake.compare_eq_lt a.id b.id).mp slots

end Shelf

namespace Store

variable {store : Store} {kind : Kind} {guild id : Snowflake}

theorem mem_scopedIds (inGuild : kind.isScoped) :
    id ∈ store.scopedIds kind guild ↔ (store.fieldsAt kind (.scoped guild id)).isSome := by
  rw [scopedIds, if_pos inGuild, Option.isSome_iff_exists]
  exact Shelf.mem_ids.trans mem_iff_getElem?

theorem scopedIds_ascending (store : Store) (kind : Kind) (guild : Snowflake) :
    (store.scopedIds kind guild).Pairwise (fun a b => a.value < b.value) := by
  unfold scopedIds
  split
  · exact Shelf.ids_ascending _ kind
  · exact .nil

end Store

end GatewayCache
