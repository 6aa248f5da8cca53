import Mathlib.Data.List.Basic
import GatewayCache.Cache.Performance
import GatewayCache.Proofs.Split
import GatewayCache.Proofs.Store.Eviction
import GatewayCache.Proofs.Store.GuildList

/-! # Sets that are replaced twice

When the emoji or the stickers of a guild are replaced, the new ones are placed,
those that were there before and are not among the new are deleted, and the new ones
are listed. No new one is stale, so placing them again finds them as they were left,
and the second time nothing is stale.
-/

namespace GatewayCache

namespace Store

theorem fieldsAt_deletes {kind : Kind} {keyOf : Snowflake → Key}
    (fit : ∀ id, address? kind (keyOf id) = some (keyOf id)) {ids : List Snowflake} {store : Store}
    {other : Kind} {place : Key} (spared : ∀ id ∈ ids, (kind, keyOf id) ≠ (other, place)) :
    (ids.foldl (fun store id => (store.delete kind (keyOf id)).2) store).fieldsAt other place =
      store.fieldsAt other place := by
  induction ids generalizing store with
  | nil => rfl
  | cons id rest ih =>
    rw [List.foldl_cons, ih (fun next member => spared next (by simp [member]))]
    simp only [delete, fit]
    rw [fieldsAt_removeAt, if_neg (spared id (by simp))]

theorem fieldsAt_deletes_of_mem {kind : Kind} {keyOf : Snowflake → Key}
    (fit : ∀ id, address? kind (keyOf id) = some (keyOf id)) {ids : List Snowflake} {store : Store}
    {id : Snowflake}
    (gone : id ∈ ids ∨ store.fieldsAt kind (keyOf id) = none) :
    (ids.foldl (fun store id => (store.delete kind (keyOf id)).2) store).fieldsAt kind (keyOf id) =
      none := by
  induction ids generalizing store with
  | nil => exact gone.resolve_left (by simp)
  | cons first rest ih =>
    rw [List.foldl_cons]
    apply ih
    simp only [delete, fit]
    rw [fieldsAt_removeAt]
    by_cases same : (kind, keyOf first) = (kind, keyOf id)
    · exact .inr (if_pos same)
    · rw [if_neg same]
      rcases gone with listed | absent
      · rcases List.mem_cons.mp listed with rfl | later
        · exact absurd rfl same
        · exact .inl later
      · exact .inr absent

end Store

namespace Cache

open Store

theorem mem_staleIds {before after : List Record} {id : Snowflake} :
    id ∈ staleIds before after ↔ id ∈ before.map Record.id ∧ id ∉ after.map Record.id := by
  simp [staleIds]

theorem staleIds_eq_nil {before after : List Record}
    (all : ∀ id ∈ before.map Record.id, id ∈ after.map Record.id) : staleIds before after = [] := by
  rw [List.eq_nil_iff_forall_not_mem]
  intro id stale
  obtain ⟨before, missing⟩ := mem_staleIds.mp stale
  exact missing (all id before)

theorem ids_emojiOf (store : Store) (guild : Snowflake) :
    (emojiOf store guild).map Record.id = store.scopedIds .emoji guild := by
  have present : ∀ id ∈ store.scopedIds .emoji guild,
      (store.getScoped .emoji guild id).map Record.id = some id := by
    intro id listed
    rw [mem_scopedIds rfl, Option.isSome_iff_exists] at listed
    obtain ⟨fields, found⟩ := listed
    simp [getScoped, recordAt, found, Kind.isScoped, Record.id, Key.id]
  rw [emojiOf, List.map_filterMap, List.filterMap_congr present, List.filterMap_some]

theorem mem_emojiOf {store : Store} {guild id : Snowflake} :
    id ∈ (emojiOf store guild).map Record.id ↔
      (store.fieldsAt .emoji (.scoped guild id)).isSome := by
  rw [ids_emojiOf, mem_scopedIds rfl]

theorem mem_stickersOf {store : Store} {guild id : Snowflake} :
    id ∈ (stickersOf store guild).map Record.id ↔
      id ∈ store.listed guild "sticker_ids" ∧ (store.fieldsAt .sticker (.global id)).isSome := by
  have found : ∀ number, store.get .sticker number =
      (store.fieldsAt .sticker (.global number)).map (⟨.sticker, .global number, ·⟩) := by
    intro number
    simp [Store.get, Kind.isScoped, recordAt]
  simp only [stickersOf, List.mem_map, List.mem_filterMap, found, Option.map_eq_some_iff]
  constructor
  · rintro ⟨record, ⟨number, listed, fields, there, rfl⟩, rfl⟩
    exact ⟨listed, Option.isSome_of_eq_some there⟩
  · rintro ⟨listed, present⟩
    obtain ⟨fields, there⟩ := Option.isSome_iff_exists.mp present
    exact ⟨⟨.sticker, .global id, fields⟩, ⟨id, listed, fields, there, rfl⟩, rfl⟩

/-- Split payloads of one kind in which only users are embedded. -/
structure Leaves (kind : Kind) (splits : List Split) : Prop where
  /-- The fields of all records are in order. -/
  ordered : ∀ split ∈ splits, split.InOrder
  /-- The payloads themselves are of the kind. -/
  root : ∀ split ∈ splits, split.root.kind = kind
  /-- What is embedded in them is not. -/
  users : ∀ split ∈ splits, ∀ record ∈ split.embedded, record.kind = .user

theorem Leaves.record {kind : Kind} {splits : List Split} (leaves : Leaves kind splits)
    {record : Record} (member : record ∈ splits.flatMap Split.records) :
    record.kind = .user ∨
      record.kind = kind ∧ record.id ∈ splits.map (fun split => split.root.id) := by
  obtain ⟨split, here, inside⟩ := List.mem_flatMap.mp member
  rcases Split.mem_records.mp inside with embedded | rfl
  · exact .inl (leaves.users split here record embedded)
  · exact .inr ⟨leaves.root split here, List.mem_map_of_mem here⟩

/-- Neither deleting what is stale nor listing what is new moves a record that was placed. -/
theorem unmoved_of_deletes {config : Config} {kind : Kind} {splits : List Split}
    (leaves : Leaves kind splits) (notUser : kind ≠ .user) (notGuild : kind ≠ .guild)
    (keyOf : Snowflake → Key) (fit : ∀ id, address? kind (keyOf id) = some (keyOf id))
    (ids : ∀ id, (keyOf id).id = id) {stale listed : List Snowflake}
    (fresh : ∀ id ∈ stale, id ∉ splits.map (fun split => split.root.id)) (guild : Snowflake)
    (field : String) (store : Store) :
    Unmoved config (splits.flatMap Split.records) store
      ((stale.foldl (fun store id => (store.delete kind (keyOf id)).2) store).setList guild field
        listed) := by
  intro record member _
  have notGuildRecord : record.kind ≠ .guild := by
    rcases leaves.record member with user | ⟨same, -⟩
    · rw [user]; decide
    · rw [same]; exact notGuild
  rw [fieldsAt_setList notGuildRecord]
  apply fieldsAt_deletes fit
  intro id gone same
  obtain ⟨sameKind, sameKey⟩ := Prod.mk.inj same
  rcases leaves.record member with user | ⟨-, new⟩
  · exact notUser (sameKind.trans user)
  · rw [Record.id, ← sameKey, ids] at new
    exact fresh id gone new

/-- Once nothing is stale, placing and listing the same again has no effect. -/
theorem replacement_again {config : Config} {kind : Kind} {splits : List Split}
    (leaves : Leaves kind splits) (notUser : kind ≠ .user) (notGuild : kind ≠ .guild)
    (keyOf : Snowflake → Key) (fit : ∀ id, address? kind (keyOf id) = some (keyOf id))
    (ids : ∀ id, (keyOf id).id = id) {stale listed : List Snowflake}
    (fresh : ∀ id ∈ stale, id ∉ splits.map (fun split => split.root.id)) (guild : Snowflake)
    (field : String) (store : Store) :
    let left := (stale.foldl (fun store id => (store.delete kind (keyOf id)).2)
      (store.placeAll config splits).2).setList guild field listed
    (left.placeAll config splits).2.setList guild field listed = left := by
  intro left
  have unmoved : Unmoved config (splits.flatMap Split.records) (store.placeAll config splits).2 left :=
    unmoved_of_deletes leaves notUser notGuild keyOf fit ids fresh guild field _
  rw [placeAll_of_unmoved leaves.ordered unmoved, setList_setList]

theorem staleIds_fresh {config : Config} {store : Store} {before : List Record}
    {splits : List Split} : ∀ id ∈ staleIds before ((store.placeAll config splits).1.map Change.after),
      id ∉ splits.map (fun split => split.root.id) := by
  intro id member
  rw [mem_staleIds, placeAll_ids] at member
  exact member.2

/-- The records after a replacement of emoji. -/
def emojiLeft (config : Config) (store : Store) (guild : Snowflake) (emojis : List Split) : Store :=
  dropStaleEmoji guild (emojiOf store guild) ((store.placeAll config emojis).1.map Change.after)
    (store.placeAll config emojis).2

theorem emojiLeft_eq (config : Config) (store : Store) (guild : Snowflake) (emojis : List Split) :
    emojiLeft config store guild emojis =
      ((staleIds (emojiOf store guild) ((store.placeAll config emojis).1.map Change.after)).foldl
        (fun store id => (store.delete .emoji (.scoped guild id)).2)
        (store.placeAll config emojis).2).setList guild "emoji_ids"
          (emojis.map (fun split => split.root.id)) := by
  rw [emojiLeft, dropStaleEmoji, placeAll_ids]

/-- Of the emoji of a guild, only the new ones are left. -/
theorem fieldsAt_emojiLeft_old {config : Config} {emojis : List Split} {store : Store}
    {guild id : Snowflake}
    (own : ∀ record ∈ emojis.flatMap Split.records, record.kind = .emoji →
      record.id ∈ emojis.map (fun split => split.root.id))
    (old : id ∉ emojis.map (fun split => split.root.id)) :
    (emojiLeft config store guild emojis).fieldsAt .emoji (.scoped guild id) = none := by
  have fit : ∀ id, address? .emoji (.scoped guild id) = some (.scoped guild id) := fun _ => rfl
  rw [emojiLeft_eq, fieldsAt_setList (by decide)]
  apply fieldsAt_deletes_of_mem fit
  by_cases before : (store.fieldsAt .emoji (.scoped guild id)).isSome
  · rw [mem_staleIds, mem_emojiOf, placeAll_ids]
    exact .inl ⟨before, old⟩
  · have untouched : ∀ record ∈ emojis.flatMap Split.records, config.stores record.kind →
        (record.kind, record.key) ≠ (Kind.emoji, Key.scoped guild id) := by
      intro record member _ same
      obtain ⟨sameKind, sameKey⟩ := Prod.mk.inj same
      have new := own record member sameKind
      rw [Record.id, sameKey] at new
      exact old new
    rw [placeAll_snd, fieldsAt_writeAll_of_untouched untouched]
    exact .inr (by simpa using before)

theorem emojiLeft_emojiLeft {config : Config} {emojis : List Split} (leaves : Leaves .emoji emojis)
    (store : Store) (guild : Snowflake) :
    emojiLeft config (emojiLeft config store guild emojis) guild emojis =
      emojiLeft config store guild emojis := by
  have own : ∀ record ∈ emojis.flatMap Split.records, record.kind = .emoji →
      record.id ∈ emojis.map (fun split => split.root.id) := by
    intro record member emoji
    rcases leaves.record member with user | ⟨-, new⟩
    · exact absurd (user.symm.trans emoji) (by decide)
    · exact new
  have nothing : staleIds (emojiOf (emojiLeft config store guild emojis) guild)
      (((emojiLeft config store guild emojis).placeAll config emojis).1.map Change.after) = [] := by
    apply staleIds_eq_nil
    intro id left
    rw [placeAll_ids]
    apply Classical.byContradiction
    intro old
    rw [mem_emojiOf, fieldsAt_emojiLeft_old own old] at left
    cases left
  rw [emojiLeft, dropStaleEmoji, nothing, List.foldl_nil, placeAll_ids, emojiLeft_eq]
  exact replacement_again leaves (by decide) (by decide) (Key.scoped guild) (fun _ => rfl)
    (fun _ => rfl) staleIds_fresh guild "emoji_ids" store

/-- The records after a replacement of stickers. -/
def stickersLeft (config : Config) (store : Store) (guild : Snowflake) (stickers : List Split) :
    Store :=
  dropStaleStickers guild (stickersOf store guild)
    ((store.placeAll config stickers).1.map Change.after) (store.placeAll config stickers).2

theorem stickersLeft_eq (config : Config) (store : Store) (guild : Snowflake)
    (stickers : List Split) :
    stickersLeft config store guild stickers =
      ((staleIds (stickersOf store guild)
        ((store.placeAll config stickers).1.map Change.after)).foldl
          (fun store id => (store.delete .sticker (.global id)).2)
          (store.placeAll config stickers).2).setList guild "sticker_ids"
            (stickers.map (fun split => split.root.id)) := by
  rw [stickersLeft, dropStaleStickers, placeAll_ids, deleteIds]

theorem stickersLeft_stickersLeft {config : Config} {stickers : List Split}
    (leaves : Leaves .sticker stickers) (store : Store) (guild : Snowflake) :
    stickersLeft config (stickersLeft config store guild stickers) guild stickers =
      stickersLeft config store guild stickers := by
  have nothing : staleIds (stickersOf (stickersLeft config store guild stickers) guild)
      (((stickersLeft config store guild stickers).placeAll config stickers).1.map Change.after) =
        [] := by
    apply staleIds_eq_nil
    intro id before
    have listed := (mem_stickersOf.mp before).1
    rw [stickersLeft_eq, listed_setList] at listed
    rw [placeAll_ids]
    split at listed
    · exact listed
    · cases listed
  rw [stickersLeft, dropStaleStickers, nothing, deleteIds, List.foldl_nil, placeAll_ids,
    stickersLeft_eq]
  exact replacement_again leaves (by decide) (by decide) Key.global (fun _ => rfl) (fun _ => rfl)
    staleIds_fresh guild "sticker_ids" store

end Cache

end GatewayCache
