import GatewayCache.Proofs.Store.Cells
import GatewayCache.Store.Eviction

/-! # What an eviction leaves

Evicting a guild takes its shelf away and filters the global shelf once: by the
ids that the guild's record lists, and by the guild that a record names. Which of
the two tests is made depends on the kind.
-/

namespace GatewayCache.Store

section Maps

variable {κ α : Type} [Ord κ] [Std.TransOrd κ] [Std.LawfulEqOrd κ]

theorem filter_filter (keep remain : κ → α → Bool) (map : Std.ExtTreeMap κ α) :
    (map.filter keep).filter remain = map.filter (fun key value => keep key value && remain key value) := by
  apply Std.ExtTreeMap.ext_getElem?
  intro key
  simp only [Std.ExtTreeMap.getElem?_filter', Option.filter_filter]

theorem erase_eq_filter [DecidableEq κ] (key : κ) (map : Std.ExtTreeMap κ α) :
    map.erase key = map.filter (fun other _ => other != key) := by
  apply Std.ExtTreeMap.ext_getElem?
  intro other
  rw [Std.ExtTreeMap.getElem?_erase, getElem?_filter_keys]
  by_cases same : key = other
  · simp [same]
  · simp [same, Ne.symm same]

theorem filter_eq_self {keep : κ → α → Bool} {map : Std.ExtTreeMap κ α}
    (all : ∀ key value, map[key]? = some value → keep key value) : map.filter keep = map := by
  apply Std.ExtTreeMap.ext_getElem?
  intro key
  rw [Std.ExtTreeMap.getElem?_filter']
  cases found : map[key]? with
  | none => rfl
  | some value => simp [all key value found]

end Maps

/-- Whether a slot is of a kind and one of some ids. -/
def isAmong (kind : Kind) (ids : List Snowflake) (slot : Slot) : Bool :=
  slot.kind = kind && ids.contains slot.id

theorem deleteIds_eq {kind : Kind} (global : kind.isScoped = false) (store : Store)
    (ids : List Snowflake) :
    store.deleteIds kind ids =
      { store with globals := store.globals.filter (fun slot _ => !isAmong kind ids slot) } := by
  induction ids generalizing store with
  | nil =>
    have all : store.globals.filter (fun slot _ => !isAmong kind [] slot) = store.globals :=
      filter_eq_self (fun slot _ _ => by simp [isAmong])
    rw [all]
    rfl
  | cons id rest ih =>
    have first : (store.delete kind (.global id)).2 =
        { store with globals := store.globals.filter (fun slot _ => slot != ⟨kind, id⟩) } := by
      simp [delete, address?, global, removeAt, Key.guild?, Key.id, erase_eq_filter]
    rw [deleteIds, List.foldl_cons, ← deleteIds, first, ih, filter_filter]
    congr 2
    funext slot _
    rcases slot with ⟨other, number⟩
    by_cases sameKind : other = kind <;> by_cases sameId : number = id <;>
      simp [isAmong, sameKind, sameId]

/-- Whether a global record goes when a guild is evicted. -/
def goesWith (store : Store) (guild : Snowflake) (slot : Slot) (fields : Fields) : Bool :=
  slot == ⟨.guild, guild⟩ ||
    listedKinds.any (fun entry => isAmong entry.1 (store.listed guild entry.2) slot) ||
    namingKinds.any (fun kind => namesGuild kind guild slot fields)

theorem evict_snd (store : Store) (guild : Snowflake) :
    (store.evict guild).2 =
      { globals := store.globals.filter (fun slot fields => !store.goesWith guild slot fields)
        scopes := store.scopes.erase guild } := by
  have channels : Kind.channel.isScoped = false := rfl
  have threads : Kind.thread.isScoped = false := rfl
  have stickers : Kind.sticker.isScoped = false := rfl
  simp only [evict, evictListed, evictNaming, listedKinds, namingKinds, List.foldl_cons,
    List.foldl_nil, deleteIds_eq channels, deleteIds_eq threads, deleteIds_eq stickers,
    deleteByGuild, deleteGuild, erase_eq_filter, filter_filter]
  congr 2
  funext slot fields
  simp only [goesWith, listedKinds, namingKinds, List.any_cons, List.any_nil, Bool.or_false,
    Bool.not_or, bne]
  ac_rfl

theorem fieldsAt_evict (store : Store) (guild : Snowflake) (kind : Kind) (place : Key) :
    (store.evict guild).2.fieldsAt kind place =
      (store.fieldsAt kind place).filter (fun fields =>
        place.guild? ≠ some guild ∧
          (place.guild?.isSome || !store.goesWith guild ⟨kind, place.id⟩ fields)) := by
  rcases place with id | ⟨owner, id⟩
  · simp [fieldsAt, shelf, evict_snd, Key.guild?, Key.id]
  · by_cases same : owner = guild
    · subst same
      simp [fieldsAt, shelf, evict_snd, Key.guild?]
    · have stays : (store.scopes.erase guild)[owner]? = store.scopes[owner]? :=
        getElem?_erase_of_ne (Ne.symm same) store.scopes
      simp only [fieldsAt, shelf, evict_snd, Key.guild?, stays]
      cases (store.scopes[owner]?.getD ∅)[Slot.mk kind (Key.scoped owner id).id]? <;>
        simp [same, Option.filter]

theorem fieldsAt_guild_evict (store : Store) (guild other : Snowflake) :
    (store.evict other).2.fieldsAt .guild (.global guild) =
      if guild = other then none else store.fieldsAt .guild (.global guild) := by
  rw [fieldsAt_evict]
  cases store.fieldsAt .guild (.global guild) with
  | none => simp
  | some fields =>
    by_cases same : guild = other
    · simp [same, goesWith, Key.guild?, Key.id, Option.filter]
    · simp [same, goesWith, listedKinds, namingKinds, isAmong, namesGuild, Key.guild?, Key.id,
        Option.filter]

/-- Whether a record with an id is stored and names a guild as its own. -/
def Names (store : Store) (kind : Kind) (guild id : Snowflake) : Prop :=
  ∃ record, store.get kind id = some record ∧ record.fields.relationId "guild_id" = some guild

theorem names_iff {kind : Kind} (global : kind.isScoped = false) {store : Store}
    {guild id : Snowflake} :
    store.Names kind guild id ↔
      ∃ fields, store.globals[Slot.mk kind id]? = some fields ∧
        fields.relationId "guild_id" = some guild := by
  simp only [Names, get, global, Bool.false_eq_true, if_false, recordAt, fieldsAt, shelf, Key.guild?,
    Key.id]
  constructor
  · rintro ⟨record, found, named⟩
    obtain ⟨fields, here, rfl⟩ := Option.map_eq_some_iff.mp found
    exact ⟨fields, here, named⟩
  · rintro ⟨fields, here, named⟩
    exact ⟨⟨kind, .global id, fields⟩, by rw [here, Option.map_some], named⟩

theorem names_evict_iff {kind : Kind} (global : kind.isScoped = false) {store : Store}
    {guild id : Snowflake} :
    (store.evict guild).2.Names kind guild id ↔
      ∃ fields, store.globals[Slot.mk kind id]? = some fields ∧
        fields.relationId "guild_id" = some guild ∧ store.goesWith guild ⟨kind, id⟩ fields = false := by
  rw [names_iff global, evict_snd]
  simp only [Std.ExtTreeMap.getElem?_filter', Option.filter_eq_some_iff, Bool.not_eq_true']
  constructor
  · rintro ⟨fields, ⟨here, stays⟩, named⟩
    exact ⟨fields, here, named, stays⟩
  · rintro ⟨fields, here, named, stays⟩
    exact ⟨fields, ⟨here, stays⟩, named⟩

theorem not_names_evict {kind : Kind} (naming : kind ∈ namingKinds) (store : Store)
    (guild id : Snowflake) : ¬ (store.evict guild).2.Names kind guild id := by
  have global : kind.isScoped = false := by
    simp only [namingKinds, List.mem_cons, List.not_mem_nil, or_false] at naming
    rcases naming with rfl | rfl | rfl <;> rfl
  rw [names_evict_iff global]
  rintro ⟨fields, -, named, stays⟩
  have goes : namingKinds.any (fun kind' => namesGuild kind' guild ⟨kind, id⟩ fields) := by
    rw [List.any_eq_true]
    exact ⟨kind, naming, by simp [namesGuild, named]⟩
  simp [goesWith, goes] at stays

theorem names_evict_of_listed {kind : Kind} {field : String}
    (listed : (kind, field) ∈ [(Kind.channel, "channel_ids"), (.thread, "thread_ids")])
    (store : Store) (guild id : Snowflake) :
    (store.evict guild).2.Names kind guild id ↔
      store.Names kind guild id ∧ id ∉ store.listed guild field := by
  have global : kind.isScoped = false := by
    simp only [List.mem_cons, Prod.mk.injEq, List.not_mem_nil, or_false] at listed
    rcases listed with ⟨rfl, -⟩ | ⟨rfl, -⟩ <;> rfl
  have goes : ∀ fields, store.goesWith guild ⟨kind, id⟩ fields =
      (store.listed guild field).contains id := by
    intro fields
    simp only [List.mem_cons, Prod.mk.injEq, List.not_mem_nil, or_false] at listed
    rcases listed with ⟨rfl, rfl⟩ | ⟨rfl, rfl⟩ <;>
      simp [goesWith, listedKinds, namingKinds, isAmong, namesGuild]
  rw [names_evict_iff global, names_iff global]
  simp only [goes, List.contains_eq_mem, decide_eq_false_iff_not]
  constructor
  · rintro ⟨fields, here, named, unlisted⟩
    exact ⟨⟨fields, here, named⟩, unlisted⟩
  · rintro ⟨⟨fields, here, named⟩, unlisted⟩
    exact ⟨fields, here, named, unlisted⟩

theorem guild?_evict (store : Store) (guild : Snowflake) : (store.evict guild).2.guild? guild = none := by
  simp [guild?, recordAt, fieldsAt, shelf, evict_snd, goesWith, Key.guild?, Key.id]

theorem getScoped_evict (store : Store) (kind : Kind) (guild id : Snowflake) :
    (store.evict guild).2.getScoped kind guild id = none := by
  simp [getScoped, recordAt, fieldsAt, shelf, evict_snd, Key.guild?]

/-- With the guild's record gone nothing is listed any more, so no more goes than went before. -/
theorem goesWith_evict {store : Store} {guild : Snowflake} {slot : Slot} {fields : Fields}
    (stays : store.goesWith guild slot fields = false) :
    (store.evict guild).2.goesWith guild slot fields = false := by
  have unlisted : ∀ field, (store.evict guild).2.listed guild field = [] := by
    intro field
    rw [listed, guild?_evict]
    rfl
  simp only [goesWith, Bool.or_eq_false_iff] at stays ⊢
  refine ⟨⟨stays.1.1, ?_⟩, stays.2⟩
  simp [unlisted, isAmong]

/-- Evicting a guild that was evicted changes nothing. -/
theorem evict_evict (store : Store) (guild : Snowflake) :
    ((store.evict guild).2.evict guild).2 = (store.evict guild).2 := by
  have globals : (store.evict guild).2.globals.filter
      (fun slot fields => !(store.evict guild).2.goesWith guild slot fields) =
        (store.evict guild).2.globals := by
    apply filter_eq_self
    intro slot fields here
    simp only [evict_snd store, Std.ExtTreeMap.getElem?_filter', Option.filter_eq_some_iff,
      Bool.not_eq_true'] at here
    rw [goesWith_evict here.2, Bool.not_false]
  have scopes : (store.evict guild).2.scopes.erase guild = (store.evict guild).2.scopes := by
    apply Std.ExtTreeMap.ext_getElem?
    intro other
    simp only [evict_snd store, Std.ExtTreeMap.getElem?_erase]
    split <;> rfl
  rw [evict_snd (store.evict guild).2, globals, scopes]

end GatewayCache.Store
