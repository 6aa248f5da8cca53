import GatewayCache.Proofs.Store.Cells
import GatewayCache.Store.Flat

/-! # The store refines one flat map

Shelves come to be with their first record and stay when they are emptied, a guild's
shelf is reached by another path than the global one, and a key may be of another
shape than its kind. None of that can be told from the answers: whatever is done to
an empty store, it answers and reads as the flat map to which the same is done.
-/

namespace GatewayCache

namespace Place

/-- The place that an address on the shelves stands for. -/
def ofAddress (kind : Kind) (address : Key) : Place := ⟨kind, address.guild?, address.id⟩

theorem ofAddress_injective {kind other : Kind} {address place : Key} :
    Place.ofAddress kind address = Place.ofAddress other place ↔ (kind, address) = (other, place) := by
  constructor
  · intro same
    obtain ⟨rfl, guild, id⟩ := Place.mk.inj same
    rw [Key.eq_of_parts guild id]
  · intro same
    obtain ⟨rfl, rfl⟩ := Prod.mk.inj same
    rfl

@[simp]
theorem key_ofAddress (kind : Kind) (address : Key) : (Place.ofAddress kind address).key = address := by
  cases address <;> rfl

@[simp]
theorem ofAddress_key (place : Place) : Place.ofAddress place.kind place.key = place := by
  rcases place with ⟨kind, guild | guild, id⟩ <;> rfl

theorem of?_eq (kind : Kind) (key : Key) :
    Place.of? kind key = (Store.address? kind key).map (Place.ofAddress kind) := by
  cases key <;> cases kind <;> rfl

theorem of?_address {kind : Kind} {key address : Key}
    (addressed : Store.address? kind key = some address) :
    Store.address? kind address = some address := by
  unfold Store.address? at addressed ⊢
  cases key <;> cases inGuild : kind.isScoped <;> simp_all <;> subst addressed <;> simp_all [Key.id]

end Place

theorem Shelf.getElem?_clear_kinds (kinds : List Kind) (shelf : Shelf) (slot : Slot) :
    (kinds.foldl (fun shelf kind => shelf.filter (fun slot _ => slot.kind != kind)) shelf)[slot]? =
      if slot.kind ∈ kinds then none else shelf[slot]? := by
  induction kinds generalizing shelf with
  | nil => simp
  | cons kind rest ih =>
    rw [List.foldl_cons, ih, Store.getElem?_filter_keys]
    by_cases here : slot.kind = kind <;> simp [here]

/-- A flat map holds what is on the shelves, and every record is on a shelf that fits its kind. -/
structure Represents (store : Store) (flat : Flat) : Prop where
  /-- Every record is found under the address of its kind. -/
  fits : ∀ {kind address fields}, store.fieldsAt kind address = some fields →
    Store.address? kind address = some address
  /-- Both hold the same fields. -/
  same : ∀ kind address, store.fieldsAt kind address = flat[Place.ofAddress kind address]?

namespace Represents

variable {store : Store} {flat : Flat}

theorem empty : Represents Store.empty ∅ where
  fits {kind address fields} found := by
    cases address <;> simp [Store.fieldsAt, Store.shelf, Store.empty, Key.guild?] at found
  same kind address := by
    cases address <;> simp [Store.fieldsAt, Store.shelf, Store.empty, Key.guild?]

theorem recordAt (represents : Represents store flat) (kind : Kind) (address : Key) :
    store.recordAt kind address = flat.recordAt (Place.ofAddress kind address) := by
  simp [Store.recordAt, Flat.recordAt, represents.same, Place.ofAddress]
  cases address <;> rfl

theorem write (represents : Represents store flat) {kind : Kind} {address : Key}
    (addressed : Store.address? kind address = some address) (fields : Fields) :
    Represents (store.write kind address fields)
      (flat.insert (Place.ofAddress kind address)
        ((flat[Place.ofAddress kind address]?).elim fields (fun before => before.merge fields))) where
  fits {other place found} there := by
    rw [Store.fieldsAt_write] at there
    split at there
    · next same =>
      obtain ⟨rfl, rfl⟩ := Prod.mk.inj same
      exact addressed
    · exact represents.fits there
  same other place := by
    rw [Store.fieldsAt_write, Std.ExtTreeMap.getElem?_insert]
    simp only [Std.LawfulEqCmp.compare_eq_iff_eq, Place.ofAddress_injective, represents.same]
    rfl

theorem put (represents : Represents store flat) (kind : Kind) (key : Key) (fields : Fields) :
    (store.operate (.put kind key fields)).1 = (flat.operate (.put kind key fields)).1 ∧
      Represents (store.operate (.put kind key fields)).2
        (flat.operate (.put kind key fields)).2 := by
  simp only [Store.operate, Flat.operate, Store.put, Flat.put, Place.of?_eq]
  cases addressed : Store.address? kind key with
  | none => exact ⟨rfl, represents⟩
  | some address =>
    refine ⟨?_, represents.write (Place.of?_address addressed) fields⟩
    have same := represents.same kind address
    simp only [Option.map_some, Store.changeBy, Store.recordAt, Flat.recordAt, same,
      Place.key_ofAddress]
    cases flat[Place.ofAddress kind address]? <;> rfl

theorem delete (represents : Represents store flat) (kind : Kind) (key : Key) :
    (store.delete kind key).1 = (flat.delete kind key).1 ∧
      Represents (store.delete kind key).2 (flat.delete kind key).2 := by
  simp only [Store.delete, Flat.delete, Place.of?_eq]
  cases addressed : Store.address? kind key with
  | none => exact ⟨rfl, represents⟩
  | some address =>
    refine ⟨represents.recordAt kind address, ?_, ?_⟩
    · intro other place fields there
      rw [Store.fieldsAt_removeAt] at there
      split at there
      · cases there
      · exact represents.fits there
    · intro other place
      rw [Store.fieldsAt_removeAt, Option.map_some, Std.ExtTreeMap.getElem?_erase]
      simp only [Std.LawfulEqCmp.compare_eq_iff_eq, Place.ofAddress_injective, represents.same]

theorem deleteGuild (represents : Represents store flat) (guild : Snowflake) :
    (store.deleteGuild guild).1 = (flat.deleteGuild guild).1 ∧
      Represents (store.deleteGuild guild).2 (flat.deleteGuild guild).2 := by
  refine ⟨represents.recordAt .guild (.global guild), ?_, ?_⟩
  · intro kind place fields there
    rw [Store.fieldsAt_deleteGuild] at there
    split at there
    · cases there
    · exact represents.fits there
  · intro kind place
    have isGuild : Place.ofAddress kind place = ⟨.guild, none, guild⟩ ↔
        (kind, place) = (.guild, .global guild) :=
      @Place.ofAddress_injective kind .guild place (.global guild)
    have kept : (Place.ofAddress kind place != ⟨.guild, none, guild⟩ &&
          (Place.ofAddress kind place).guild? != some guild) =
        !decide (place.guild? = some guild ∨ (kind, place) = (.guild, .global guild)) := by
      rw [Bool.eq_iff_iff]
      simp only [Bool.and_eq_true, bne_iff_ne, ne_eq, isGuild, Bool.not_eq_true',
        decide_eq_false_iff_not, not_or]
      exact And.comm
    rw [Store.fieldsAt_deleteGuild, represents.same, Flat.deleteGuild, Store.getElem?_filter_keys,
      kept]
    split <;> simp_all

theorem names_eq (kind : Kind) (guild : Snowflake) (other : Kind) (place : Key) (fields : Fields) :
    Flat.names kind guild (Place.ofAddress other place) fields =
      (place.guild?.isNone && Store.namesGuild kind guild ⟨other, place.id⟩ fields) := by
  simp only [Flat.names, Store.namesGuild, Place.ofAddress]
  cases place.guild?.isNone
  · simp
  · rw [Bool.and_true, Bool.true_and]
    rfl

theorem deleteByGuild_snd (represents : Represents store flat) (kind : Kind) (guild : Snowflake) :
    Represents (store.deleteByGuild kind guild).2 (flat.deleteByGuild kind guild).2 where
  fits {other place fields} there := by
    rw [Store.fieldsAt_deleteByGuild, Option.filter_eq_some_iff] at there
    exact represents.fits there.1
  same other place := by
    rw [Store.fieldsAt_deleteByGuild, represents.same, Flat.deleteByGuild,
      Std.ExtTreeMap.getElem?_filter']
    simp only [names_eq, Bool.not_and, Option.not_isNone]

theorem deleteByGuild (represents : Represents store flat) (kind : Kind) (guild : Snowflake) :
    (store.deleteByGuild kind guild).1 = (flat.deleteByGuild kind guild).1 ∧
      Represents (store.deleteByGuild kind guild).2 (flat.deleteByGuild kind guild).2 := by
  refine ⟨?_, represents.deleteByGuild_snd kind guild⟩
  let removed := store.globals.filter (Store.namesGuild kind guild)
  let place (slot : Slot) : Place := .ofAddress slot.kind (.global slot.id)
  have removed_size : (store.deleteByGuild kind guild).1 = removed.size := by
    have split := Store.size_filter_add (Store.namesGuild kind guild) store.globals
    simp only [Store.deleteByGuild, removed]
    omega
  have distinct : (removed.keys.map place).Nodup := by
    rw [List.Nodup, List.pairwise_map]
    refine Std.ExtTreeMap.nodup_keys.imp ?_
    rintro ⟨kind, id⟩ ⟨other, number⟩ apart same
    obtain ⟨rfl, -, rfl⟩ := Place.mk.inj same
    exact apart rfl
  have same : ∀ here : Place,
      here ∈ removed.keys.map place ↔ here ∈ flat.filter (Flat.names kind guild) := by
    intro here
    simp only [List.mem_map, Std.ExtTreeMap.mem_keys, removed, Store.mem_filter_iff]
    constructor
    · rintro ⟨slot, ⟨fields, there, named⟩, rfl⟩
      refine ⟨fields, (represents.same slot.kind (.global slot.id)).symm.trans there, ?_⟩
      rw [names_eq]
      exact named
    · rintro ⟨fields, there, named⟩
      have global : here.guild? = none := by
        simp only [Flat.names, Bool.and_eq_true, Option.isNone_iff_eq_none] at named
        exact named.1.2
      obtain ⟨other, guild?, id⟩ := here
      obtain rfl : guild? = none := global
      refine ⟨⟨other, id⟩, ⟨fields, (represents.same other (.global id)).trans there, ?_⟩, rfl⟩
      have both := names_eq kind guild other (.global id) fields
      exact both.symm.trans named
  rw [removed_size, Flat.deleteByGuild, Store.size_eq_length distinct same, List.length_map,
    Std.ExtTreeMap.length_keys]

/-- Clearing goes through the global kinds one by one, which are all that the global shelf holds. -/
theorem clear (represents : Represents store flat) : Represents store.clear ∅ := by
  have gone : ∀ kind address, store.clear.fieldsAt kind address = none := by
    intro kind address
    rcases address with id | ⟨owner, id⟩
    · simp only [Store.fieldsAt, Store.clear, Store.shelf, Key.guild?, Key.id,
        Shelf.getElem?_clear_kinds]
      split
      · rfl
      · next inGuild =>
        have stays : kind.isScoped := by
          have listed : kind ∈ Kind.all := by cases kind <;> decide
          simpa [listed] using inGuild
        cases there : store.globals[Slot.mk kind id]? with
        | none => rfl
        | some fields =>
          have found : store.fieldsAt kind (.global id) = some fields := there
          have fits := represents.fits found
          simp [Store.address?, stays] at fits
    · simp [Store.fieldsAt, Store.clear, Store.shelf, Key.guild?]
  exact ⟨fun there => by simp [gone] at there, fun kind address => by simp [gone]⟩

theorem operate (represents : Represents store flat) (operation : Operation) :
    (store.operate operation).1 = (flat.operate operation).1 ∧
      Represents (store.operate operation).2 (flat.operate operation).2 := by
  cases operation with
  | put kind key fields => exact represents.put kind key fields
  | delete kind key =>
    have step := represents.delete kind key
    exact ⟨congrArg Answer.removed step.1, step.2⟩
  | deleteGuild guild =>
    have step := represents.deleteGuild guild
    exact ⟨congrArg Answer.removed step.1, step.2⟩
  | deleteByGuild kind guild =>
    have step := represents.deleteByGuild kind guild
    exact ⟨congrArg Answer.counted step.1, step.2⟩
  | clear => exact ⟨rfl, represents.clear⟩

theorem operateAll (represents : Represents store flat) (operations : List Operation) :
    (store.operateAll operations).1 = (flat.operateAll operations).1 ∧
      Represents (store.operateAll operations).2 (flat.operateAll operations).2 := by
  induction operations generalizing store flat with
  | nil => exact ⟨rfl, represents⟩
  | cons operation rest ih =>
    obtain ⟨answer, next⟩ := represents.operate operation
    obtain ⟨answers, last⟩ := ih next
    refine ⟨?_, last⟩
    simp only [Store.operateAll, Flat.operateAll, answer, answers]

end Represents

namespace Flat

theorem recordAt_isSome {flat : Flat} {place : Place} :
    (flat.recordAt place).isSome ↔ place ∈ flat := by
  rw [recordAt, Option.isSome_map, Std.ExtTreeMap.isSome_getElem?_iff_mem]

theorem mem_ids {flat : Flat} {kind : Kind} {guild : Option Snowflake} {id : Snowflake} :
    id ∈ flat.ids kind guild ↔ (⟨kind, guild, id⟩ : Place) ∈ flat := by
  simp only [ids, List.mem_map, List.mem_filter, Std.ExtTreeMap.mem_keys, Bool.and_eq_true,
    decide_eq_true_eq]
  constructor
  · rintro ⟨⟨kind, guild, id⟩, ⟨there, rfl, rfl⟩, rfl⟩
    exact there
  · intro there
    exact ⟨⟨kind, guild, id⟩, ⟨there, rfl, rfl⟩, rfl⟩

theorem ids_ascending (flat : Flat) (kind : Kind) (guild : Option Snowflake) :
    (flat.ids kind guild).Pairwise (fun a b => a.value < b.value) := by
  rw [ids, List.pairwise_map, List.pairwise_filter]
  refine Std.ExtTreeMap.ordered_keys.imp ?_
  intro a b below here there
  simp only [Bool.and_eq_true, decide_eq_true_eq] at here there
  have places : (compare a.kind b.kind).then ((compare a.guild? b.guild?).then
      (compare a.id b.id)) = .lt := below
  have kinds : compare kind kind = .eq := Std.ReflCmp.compare_self
  have guilds : compare guild guild = .eq := Std.ReflCmp.compare_self
  rw [here.1, there.1, here.2, there.2, kinds, guilds, Ordering.then, Ordering.then] at places
  exact (Snowflake.compare_eq_lt a.id b.id).mp places

end Flat

/-- The store reads as a flat map does. -/
structure Agrees (store : Store) (flat : Flat) : Prop where
  /-- A key of a kind finds what is at its place. -/
  getKey : ∀ {kind key place}, Place.of? kind key = some place →
    store.getKey kind key = flat.recordAt place
  /-- A key without the guild that its kind lives in finds only records of the kind and the id, and
  finds one if any guild has one. -/
  getAny : ∀ {kind key}, Place.of? kind key = none →
    (∀ record, store.getKey kind key = some record →
      ∃ guild, flat.recordAt ⟨kind, some guild, key.id⟩ = some record) ∧
    ((store.getKey kind key).isSome ↔ ∃ guild, (⟨kind, some guild, key.id⟩ : Place) ∈ flat)
  /-- So does a lookup within a guild. -/
  getScoped : ∀ kind guild id, store.getScoped kind guild id = flat.recordAt ⟨kind, some guild, id⟩
  /-- The ids within a guild are those in the map, ascending and each once. -/
  scopedIds : ∀ kind guild, store.scopedIds kind guild = flat.ids kind (some guild) ∧
    (store.scopedIds kind guild).Pairwise (fun a b => a.value < b.value)
  /-- The guilds are those in the map. -/
  guildIds : store.guildIds = flat.ids .guild none
  /-- Every kind is counted right. -/
  count : ∀ kind, store.count kind = flat.count kind
  /-- So are all kinds at once. -/
  stats : store.stats = Kind.all.map (fun kind => (kind, flat.count kind))

namespace Represents

variable {store : Store} {flat : Flat}

theorem mem_flat (represents : Represents store flat) (kind : Kind) (address : Key) :
    Place.ofAddress kind address ∈ flat ↔ Slot.mk kind address.id ∈ store.shelf address.guild? := by
  rw [Store.mem_iff_getElem?, Store.mem_iff_getElem?]
  simp only [← represents.same, Store.fieldsAt]

theorem mem_scopes {guild : Snowflake} {slot : Slot} (there : slot ∈ store.shelf (some guild)) :
    guild ∈ store.scopes := by
  rw [← Std.ExtTreeMap.isSome_getElem?_iff_mem]
  cases shelved : store.scopes[guild]? with
  | some shelf => rfl
  | none => simp [Store.shelf, shelved] at there

theorem isScoped_eq (represents : Represents store flat) {place : Place} (there : place ∈ flat) :
    place.kind.isScoped = place.guild?.isSome := by
  obtain ⟨fields, found⟩ := Store.mem_iff_getElem?.mp there
  rw [← Place.ofAddress_key place, ← represents.same] at found
  have fits := represents.fits found
  rcases place with ⟨kind, _ | guild, id⟩ <;>
    cases inGuild : kind.isScoped <;> simp_all [Store.address?, Place.key, Key.within]

theorem getScoped (represents : Represents store flat) (kind : Kind) (guild id : Snowflake) :
    store.getScoped kind guild id = flat.recordAt ⟨kind, some guild, id⟩ := by
  unfold Store.getScoped
  split
  · exact represents.recordAt kind (.scoped guild id)
  · next outside =>
    have absent : ¬ (⟨kind, some guild, id⟩ : Place) ∈ flat :=
      fun there => outside (represents.isScoped_eq there)
    have nothing : flat[(⟨kind, some guild, id⟩ : Place)]? = none :=
      Std.ExtTreeMap.getElem?_eq_none absent
    rw [Flat.recordAt, nothing, Option.map_none]

theorem getKey (represents : Represents store flat) {kind : Kind} {key : Key} {place : Place}
    (named : Place.of? kind key = some place) : store.getKey kind key = flat.recordAt place := by
  rw [Place.of?_eq, Option.map_eq_some_iff] at named
  obtain ⟨address, addressed, rfl⟩ := named
  simp only [Store.getKey, addressed]
  exact represents.recordAt kind address

theorem getAny (represents : Represents store flat) {kind : Kind} {key : Key}
    (unnamed : Place.of? kind key = none) :
    (∀ record, store.getKey kind key = some record →
      ∃ guild, flat.recordAt ⟨kind, some guild, key.id⟩ = some record) ∧
    ((store.getKey kind key).isSome ↔ ∃ guild, (⟨kind, some guild, key.id⟩ : Place) ∈ flat) := by
  have inGuild : kind.isScoped := by
    cases inGuild : kind.isScoped
    · simp [Place.of?, inGuild] at unnamed
    · rfl
  have searched : store.getKey kind key =
      store.scopes.keys.findSome? (fun guild => flat.recordAt ⟨kind, some guild, key.id⟩) := by
    rw [Place.of?_eq, Option.map_eq_none_iff] at unnamed
    simp only [Store.getKey, unnamed, Store.get, if_pos inGuild, represents.getScoped]
  constructor
  · intro record found
    rw [searched] at found
    obtain ⟨guild, -, here⟩ := List.exists_of_findSome?_eq_some found
    exact ⟨guild, here⟩
  · rw [searched, List.findSome?_isSome_iff]
    constructor
    · rintro ⟨guild, -, found⟩
      exact ⟨guild, Flat.recordAt_isSome.mp found⟩
    · rintro ⟨guild, there⟩
      refine ⟨guild, ?_, Flat.recordAt_isSome.mpr there⟩
      rw [Std.ExtTreeMap.mem_keys]
      exact mem_scopes ((represents.mem_flat kind (.scoped guild key.id)).mp there)

theorem scopedIds (represents : Represents store flat) (kind : Kind) (guild : Snowflake) :
    store.scopedIds kind guild = flat.ids kind (some guild) ∧
      (store.scopedIds kind guild).Pairwise (fun a b => a.value < b.value) := by
  have ascends := Store.scopedIds_ascending store kind guild
  refine ⟨Snowflake.eq_of_ascending ascends (Flat.ids_ascending flat kind (some guild)) ?_, ascends⟩
  intro id
  have here := represents.mem_flat kind (.scoped guild id)
  rw [Flat.mem_ids, Store.scopedIds]
  split
  · rw [Shelf.mem_ids]
    exact here.symm
  · next outside =>
    constructor
    · intro there
      cases there
    · intro there
      exact absurd (represents.isScoped_eq there) outside

theorem guildIds (represents : Represents store flat) : store.guildIds = flat.ids .guild none := by
  refine Snowflake.eq_of_ascending (Shelf.ids_ascending _ _) (Flat.ids_ascending _ _ _) ?_
  intro id
  rw [Flat.mem_ids, Store.guildIds, Shelf.mem_ids]
  exact (represents.mem_flat .guild (.global id)).symm

/-- A kind is counted where all places of the kind are listed, each once. -/
theorem count_eq_length {kind : Kind} {places : List Place} (distinct : places.Nodup)
    (same : ∀ place, place ∈ places ↔ place.kind = kind ∧ place ∈ flat) :
    flat.count kind = places.length := by
  apply Store.size_eq_length distinct
  intro place
  rw [same, Store.mem_filter_iff, Store.mem_iff_getElem?]
  simp [and_comm]

/-- The places of a kind inside the guilds, shelf by shelf. -/
def scopedPlaces (store : Store) (kind : Kind) : List Place :=
  store.scopes.toList.flatMap
    (fun scope => (scope.2.ids kind).map (fun id => ⟨kind, some scope.1, id⟩))

theorem distinct_ids (shelf : Shelf) (kind : Kind) (guild : Option Snowflake) :
    ((shelf.ids kind).map (fun id => (⟨kind, guild, id⟩ : Place))).Nodup := by
  rw [List.Nodup, List.pairwise_map]
  refine (Shelf.ids_ascending shelf kind).imp ?_
  intro a b below same
  obtain ⟨-, -, rfl⟩ := Place.mk.inj same
  exact UInt64.lt_irrefl _ below

theorem distinct_scopedPlaces (store : Store) (kind : Kind) : (scopedPlaces store kind).Nodup := by
  rw [scopedPlaces, List.Nodup, List.pairwise_flatMap]
  refine ⟨fun scope _ => distinct_ids scope.2 kind (some scope.1), ?_⟩
  refine Std.ExtTreeMap.distinct_keys_toList.imp ?_
  intro scope other apart place inside second within same
  obtain ⟨id, -, rfl⟩ := List.mem_map.mp inside
  obtain ⟨number, -, rfl⟩ := List.mem_map.mp within
  obtain ⟨-, guilds, -⟩ := Place.mk.inj same
  rw [Option.some.injEq] at guilds
  exact apart (Std.LawfulEqCmp.compare_eq_iff_eq.mpr guilds)

theorem mem_scopedPlaces (represents : Represents store flat) {kind : Kind}
    (inGuild : kind.isScoped) (place : Place) :
    place ∈ scopedPlaces store kind ↔ place.kind = kind ∧ place ∈ flat := by
  simp only [scopedPlaces, List.mem_flatMap, List.mem_map, Prod.exists,
    Std.ExtTreeMap.mem_toList_iff_getElem?_eq_some, Shelf.mem_ids]
  constructor
  · rintro ⟨guild, shelf, shelved, id, there, rfl⟩
    refine ⟨rfl, (represents.mem_flat kind (.scoped guild id)).mpr ?_⟩
    simpa [Store.shelf, Key.guild?, Key.id, shelved] using there
  · rintro ⟨rfl, there⟩
    have owned := represents.isScoped_eq there
    obtain ⟨kind, _ | guild, id⟩ := place
    · simp [inGuild] at owned
    · have slotted := (represents.mem_flat kind (.scoped guild id)).mp there
      cases shelved : store.scopes[guild]? with
      | none => simp [Store.shelf, Key.guild?, shelved] at slotted
      | some shelf =>
        refine ⟨guild, shelf, shelved, id, ?_, rfl⟩
        simpa [Store.shelf, Key.guild?, Key.id, shelved] using slotted

theorem count (represents : Represents store flat) (kind : Kind) :
    store.count kind = flat.count kind := by
  unfold Store.count
  split
  · next inGuild =>
    rw [count_eq_length (distinct_scopedPlaces store kind)
      (represents.mem_scopedPlaces inGuild), scopedPlaces, List.length_flatMap]
    simp
  · next global =>
    let places := (store.globals.ids kind).map (fun id => (⟨kind, none, id⟩ : Place))
    have same : ∀ place, place ∈ places ↔ place.kind = kind ∧ place ∈ flat := by
      intro place
      simp only [places, List.mem_map, Shelf.mem_ids]
      constructor
      · rintro ⟨id, there, rfl⟩
        exact ⟨rfl, (represents.mem_flat kind (.global id)).mpr there⟩
      · rintro ⟨rfl, there⟩
        have owned := represents.isScoped_eq there
        obtain ⟨kind, _ | guild, id⟩ := place
        · exact ⟨id, (represents.mem_flat kind (.global id)).mp there, rfl⟩
        · simp [global] at owned
    rw [count_eq_length (distinct_ids store.globals kind none) same, List.length_map]

/-- What stands for a store cannot be told from it by reading. -/
theorem agrees (represents : Represents store flat) : Agrees store flat where
  getKey named := represents.getKey named
  getAny unnamed := represents.getAny unnamed
  getScoped := represents.getScoped
  scopedIds := represents.scopedIds
  guildIds := represents.guildIds
  count := represents.count
  stats := by simp only [Store.stats, represents.count]

end Represents

/-- The store refines one flat map: operations in any number and order, done to an empty store and to
an empty map, give the same answers, and afterwards both read alike. -/
theorem store_refines_flat (operations : List Operation) :
    (Store.empty.operateAll operations).1 = (Flat.operateAll ∅ operations).1 ∧
      Agrees (Store.empty.operateAll operations).2 (Flat.operateAll ∅ operations).2 :=
  have run := Represents.empty.operateAll operations
  ⟨run.1, run.2.agrees⟩

end GatewayCache
