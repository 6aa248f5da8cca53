import GatewayCache.Proofs.Cache.Isolation
import GatewayCache.Proofs.Store.Hiding
import GatewayCache.Proofs.Store.Listing
import GatewayCache.Proofs.Update.Entities

/-! # Emoji that are replaced

The emoji of a guild are replaced as a set: what is in the update is merged in, what
is not is gone, whatever was there before and whether or not the guild is known.
-/

namespace GatewayCache

open Store

namespace Store

variable {config : Config} {store : Store}

theorem placeAll_append (config : Config) (store : Store) (front back : List Split) :
    store.placeAll config (front ++ back) =
      ((store.placeAll config front).1 ++ ((store.placeAll config front).2.placeAll config back).1,
        ((store.placeAll config front).2.placeAll config back).2) := by
  induction front generalizing store with
  | nil => rfl
  | cons split rest ih => simp only [List.cons_append, placeAll, ih]

theorem length_placeAll (config : Config) (store : Store) (splits : List Split) :
    (store.placeAll config splits).1.length = splits.length := by
  have ids := congrArg List.length (placeAll_ids config store splits)
  simpa using ids

/-- Each placement tells of the record as it is stored by then. -/
theorem placeAll_told (store : Store) {front back : List Split} {split : Split}
    (stored : config.stores split.root.kind) :
    ((store.placeAll config (front ++ split :: back)).1.map Change.after)[front.length]? =
      (store.placeAll config (front ++ [split])).2.recordAt split.root.kind split.root.key := by
  have here := place_after_eq config (store.placeAll config front).2 split
  rw [if_pos stored] at here
  have told : ((store.placeAll config (front ++ split :: back)).1.map Change.after)[front.length]? =
      some ((store.placeAll config front).2.place config split).1.after := by
    rw [placeAll_append, List.map_append, List.getElem?_append_right (by simp [length_placeAll])]
    simp [length_placeAll, placeAll]
  rw [told, here, placeAll_append]
  rfl

end Store

namespace Cache

variable {config : Config} {store : Store} {guild id : Snowflake} {items : List Json}
  {splits : List Split} {kind : Kind} {place : Key}

theorem mem_stale_emoji :
    id ∈ staleIds (emojiOf store guild) ((store.placeAll config splits).1.map Change.after) ↔
      (store.fieldsAt .emoji (.scoped guild id)).isSome ∧
        id ∉ splits.map (fun split => split.root.id) := by
  rw [mem_staleIds, mem_emojiOf, placeAll_ids]

theorem fieldsAt_emojiLeft (notGuild : kind ≠ .guild) :
    (emojiLeft config store guild splits).fieldsAt kind place =
      if ∃ id ∈ staleIds (emojiOf store guild) ((store.placeAll config splits).1.map Change.after),
          (Kind.emoji, Key.scoped guild id) = (kind, place)
      then none else (store.placeAll config splits).2.fieldsAt kind place := by
  rw [emojiLeft_eq, fieldsAt_setList notGuild, fieldsAt_deletes_eq fun _ => rfl]

theorem fieldsAt_emojiLeft_new (stored : config.stores .emoji)
    (apart : Update.EachApart .emoji guild items splits)
    (new : id ∈ splits.map (fun split => split.root.id)) :
    (emojiLeft config store guild splits).fieldsAt .emoji (.scoped guild id) =
      contentAfter (store.fieldsAt .emoji (.scoped guild id)) .emoji (.scoped guild id)
        (splits.map Split.root) := by
  rw [fieldsAt_emojiLeft (by decide), if_neg, fieldsAt_placeAll_own rfl apart stored (by decide)]
  rintro ⟨id, stale, ⟨⟩⟩
  exact (mem_stale_emoji.mp stale).2 new

theorem fieldsAt_emojiLeft_of_ne (notGuild : kind ≠ .guild)
    (other : kind = .emoji → place.guild? ≠ some guild) :
    (emojiLeft config store guild splits).fieldsAt kind place =
      (store.placeAll config splits).2.fieldsAt kind place := by
  rw [fieldsAt_emojiLeft notGuild, if_neg]
  rintro ⟨id, -, ⟨⟩⟩
  exact other rfl rfl

/-- The records before and after the emoji of a guild were replaced by those that the entries of an
update come to. -/
structure EmojiReplaced (dispatch : Dispatch) (guild : Snowflake) (normalized : List Record)
    (before after : Store) : Prop where
  /-- The entries come to emoji of the guild, one for each id in the update. -/
  inside : ∀ record ∈ normalized, record.kind = .emoji ∧ record.key = .scoped guild record.id
  named : normalized.map Record.id = dispatch.entityIds
  /-- The guild has an emoji for each id in the update, and no other. -/
  ids : ∀ id, id ∈ after.scopedIds .emoji guild ↔ id ∈ dispatch.entityIds
  /-- They are told in ascending order. -/
  ascending : (after.scopedIds .emoji guild).Pairwise (fun a b => a.value < b.value)
  /-- Each is what it was before, with the entries of its id merged in one after the other. -/
  merged : ∀ id ∈ dispatch.entityIds,
    after.fieldsAt .emoji (.scoped guild id) =
      contentAfter (before.fieldsAt .emoji (.scoped guild id)) .emoji (.scoped guild id) normalized
  /-- The record of the guild, if there is one, lists the ids as they are in the update, and of the
  records of guilds nothing else changes. -/
  edited : ListEdited "emoji_ids" guild dispatch.entityIds before after
  listed : (before.guild? guild).isSome →
    after.guildField guild "emoji_ids" = some (.arr (dispatch.entityIds.map Snowflake.toJson))
  /-- The users embedded in the entries are merged in. -/
  users : ∀ key, after.fieldsAt .user key =
    contentAfter (before.fieldsAt .user key) .user key dispatch.users
  /-- All other records are as they were. -/
  others : ∀ kind key, kind ≠ .guild → kind ≠ .user → (kind = .emoji → key.guild? ≠ some guild) →
    after.fieldsAt kind key = before.fieldsAt kind key

theorem emojiReplaced_of_eachApart {dispatch : Dispatch} (stored : config.stores .emoji)
    (apart : Update.EachApart .emoji guild dispatch.entities splits)
    (inside : ∀ split ∈ splits, split.root.key.guild? = some guild) :
    EmojiReplaced dispatch guild (splits.map Split.root) store
      (emojiLeft config store guild splits) := by
  have ids : dispatch.entityIds = splits.map (fun split => split.root.id) :=
    Update.ownIds_of_eachApart (fun _ => rfl) apart
  have placed : KeepsGuilds store (store.placeAll config splits).2 := by
    rintro kind place rfl
    exact fieldsAt_placeAll_of_ne rfl apart (by decide) (by decide)
  have cleared : KeepsGuilds (store.placeAll config splits).2
      ((staleIds (emojiOf store guild) ((store.placeAll config splits).1.map Change.after)).foldl
        (fun store id => (store.delete .emoji (.scoped guild id)).2)
        (store.placeAll config splits).2) :=
    keeps_deletes (fun _ => rfl) (fun _ _ => by decide) _
  have guilds : KeepsGuilds store _ := placed.trans cleared
  have roots : ∀ split ∈ splits,
      split.root.kind = .emoji ∧ split.root.key = .scoped guild split.root.id := fun split here =>
    ⟨root_kind_of_eachApart apart here, Key.eq_of_parts (inside split here) rfl⟩
  constructor
  case inside =>
    intro record member
    obtain ⟨split, here, rfl⟩ := List.mem_map.mp member
    exact roots split here
  case named => rw [ids, List.map_map, Function.comp_def]
  case ids =>
    intro id
    rw [mem_scopedIds rfl, ids]
    by_cases new : id ∈ splits.map (fun split => split.root.id)
    · obtain ⟨split, here, rfl⟩ := List.mem_map.mp new
      obtain ⟨kind, key⟩ := roots split here
      have written := isSome_contentAfter (List.mem_map_of_mem (f := Split.root) here)
        (store.fieldsAt .emoji (.scoped guild split.root.id))
      rw [kind, key] at written
      simpa [fieldsAt_emojiLeft_new stored apart new, new] using written
    · simp [fieldsAt_emojiLeft_old (own_of_eachApart rfl apart (by decide)) new, new]
  case ascending => exact scopedIds_ascending _ .emoji guild
  case merged =>
    intro id new
    rw [ids] at new
    exact fieldsAt_emojiLeft_new stored apart new
  case edited =>
    rw [emojiLeft_eq, ids]
    exact .between guilds (ListEdited.setList _) (.refl _ _)
  case listed =>
    intro known
    rw [emojiLeft_eq, ids]
    apply guildField_setList
    rw [guilds.guild?, known]
  case users =>
    intro key
    rw [fieldsAt_emojiLeft_of_ne (by decide) (by simp)]
    exact fieldsAt_placeAll_user rfl apart (by decide)
  case others =>
    intro kind key notGuild notUser elsewhere
    rw [fieldsAt_emojiLeft_of_ne notGuild elsewhere]
    by_cases emoji : kind = .emoji
    · subst emoji
      rw [fieldsAt_placeAll_own rfl apart stored notUser]
      apply contentAfter_of_untouched
      intro write member same
      obtain ⟨split, here, rfl⟩ := List.mem_map.mp member
      apply elsewhere rfl
      rw [← (Prod.mk.inj same).2]
      exact inside split here
    · exact fieldsAt_placeAll_of_ne rfl apart notUser emoji

theorem mem_emojiOf_iff {record : Record} :
    record ∈ emojiOf store guild ↔ ∃ id, store.getScoped .emoji guild id = some record := by
  simp only [emojiOf, List.mem_filterMap]
  constructor
  · rintro ⟨id, -, found⟩
    exact ⟨id, found⟩
  · rintro ⟨id, found⟩
    obtain ⟨fields, here, -⟩ := Option.map_eq_some_iff.mp found
    exact ⟨id, (mem_scopedIds rfl).mpr (Option.isSome_of_eq_some here), found⟩

theorem emoji_told (stored : config.stores .emoji)
    (apart : Update.EachApart .emoji guild items splits) {front back : List Record} {record : Record}
    (here : splits.map Split.root = front ++ record :: back) :
    ((store.placeAll config splits).1.map Change.after)[front.length]? =
      (contentAfter (store.fieldsAt .emoji record.key) .emoji record.key (front ++ [record])).map
        (⟨.emoji, record.key, ·⟩) := by
  obtain ⟨earlier, rest, rfl, rfl, more⟩ := List.map_eq_append_iff.mp here
  obtain ⟨split, later, rfl, rfl, -⟩ := List.map_eq_cons_iff.mp more
  have kind : split.root.kind = .emoji := root_kind_of_eachApart apart (by simp)
  have so_far : Update.EachApart .emoji guild (items.take (earlier ++ [split]).length)
      (earlier ++ [split]) := by
    apply List.forall₂_take_append _ _ later
    simpa using apart
  rw [List.length_map, placeAll_told store (by rw [kind, stored]), kind, recordAt,
    fieldsAt_placeAll_own rfl so_far stored (by decide), List.map_append]
  rfl

/-- The emoji of a guild are replaced as a set by the entries of an update that name no other guild. The
event tells of all emoji that were there before, by ascending id, and of the record that each entry came
to. -/
theorem apply_emojis_replaced (cache : Cache) (dispatch : Dispatch) {outcome : Outcome} {after : Cache}
    (update : dispatch.name = "GUILD_EMOJIS_UPDATE") (stored : cache.config.cacheEmoji)
    (own : ∀ entry ∈ dispatch.entities, ∀ other, entry.owner? = some other →
      dispatch.addressee? = some other)
    (done : cache.apply dispatch = (.ok outcome, after)) :
    ∃ guild normalized before told, dispatch.addressee? = some guild ∧
      Update.Normalizes cache.config .emoji guild dispatch.entities normalized ∧
      EmojiReplaced dispatch guild normalized cache.store after.store ∧
      outcome = ⟨cache.rawEvents dispatch ++ [.guildEmojisUpdate guild before told], none⟩ ∧
      (before.map Record.id).Pairwise (fun a b => a.value < b.value) ∧
      (∀ record, record ∈ before ↔ ∃ id, cache.store.getScoped .emoji guild id = some record) ∧
      told.map Record.id = dispatch.entityIds ∧
      ∀ front record back, normalized = front ++ record :: back →
        told[front.length]? =
          (contentAfter (cache.store.fieldsAt .emoji record.key) .emoji record.key
            (front ++ [record])).map (⟨.emoji, record.key, ·⟩) := by
  obtain ⟨name, data⟩ := dispatch
  obtain rfl : name = UpdateKind.guildEmojisUpdate.name := update
  obtain ⟨result, reads, rfl, rfl⟩ := of_apply_ok (UpdateKind.ofName?_name .guildEmojisUpdate) done
  obtain ⟨guild, splits, addressed, apart, rfl⟩ := Update.read_set rfl rfl reads
  have inside : ∀ split ∈ splits, split.root.key.guild? = some guild := by
    intro split member
    obtain ⟨entry, among, taken⟩ := Update.entity_of_eachApart apart member
    obtain ⟨payload, rfl, parts⟩ := Split.obj_of_ofJson taken
    rw [Split.root_guild? rfl parts]
    cases named : payload.relationId "guild_id" with
    | none => rfl
    | some other => exact (own _ among other named).symm.trans addressed
  refine ⟨guild, splits.map Split.root, emojiOf cache.store guild,
    (cache.store.placeAll cache.config splits).1.map Change.after, addressed,
    Update.normalizes_of_eachApart apart, emojiReplaced_of_eachApart stored apart inside, rfl, ?_,
    fun _ => mem_emojiOf_iff, ?_, fun _ _ _ => emoji_told stored apart⟩
  · rw [ids_emojiOf]
    exact scopedIds_ascending cache.store .emoji guild
  · rw [placeAll_ids]
    exact (Update.ownIds_of_eachApart (fun _ => rfl) apart).symm

/-- Of the emoji 5 and 7 of a guild, the first one goes and the second one is changed, and emoji 9 comes,
which is in the update twice and made by a user. -/
theorem apply_emojis_replaced_repeated :
    let joined : Dispatch := ⟨"GUILD_CREATE", .obj
      [("emojis", .arr [.obj [("id", .str "5")], .obj [("id", .str "7"), ("name", .str "x")]]),
       ("id", .str "1"), ("name", .str "a")]⟩
    let update : Dispatch := ⟨"GUILD_EMOJIS_UPDATE", .obj
      [("emojis", .arr
        [.obj [("id", .str "9"), ("user", .obj [("id", .str "2")])],
         .obj [("animated", .bool true), ("id", .str "7")],
         .obj [("guild_id", .str "1"), ("id", .str "9"), ("name", .str "y")]]),
       ("guild_id", .str "1")]⟩
    let before := (empty {}).applyAll [joined]
    let after := (before.apply update).2
    before.store.scopedIds .emoji ⟨1⟩ = [⟨5⟩, ⟨7⟩] ∧
      after.store.scopedIds .emoji ⟨1⟩ = [⟨7⟩, ⟨9⟩] ∧
      after.store.fieldsAt .emoji (.scoped ⟨1⟩ ⟨7⟩) =
        some [("animated", .bool true), ("guild_id", .str "1"), ("id", .str "7"), ("name", .str "x")] ∧
      after.store.guildField ⟨1⟩ "emoji_ids" = some (.arr [.str "9", .str "7", .str "9"]) ∧
      after.store.guildField ⟨1⟩ "name" = some (.str "a") ∧
      after.store.fieldsAt .user (.global ⟨2⟩) = some [("id", .str "2")] := by
  intro joined update before after
  have own : ∀ entry ∈ update.entities, ∀ other, entry.owner? = some other →
      update.addressee? = some other := Dispatch.own_of_owner? (by decide +kernel)
  obtain ⟨outcome, accepted⟩ : ∃ outcome, (before.apply update).1 = .ok outcome := ⟨_, rfl⟩
  have done : before.apply update = (.ok outcome, after) := Prod.ext accepted rfl
  obtain ⟨guild, normalized, old, told, addressed, -, replaced, -⟩ :=
    apply_emojis_replaced before update rfl rfl own done
  obtain rfl : ⟨1⟩ = guild := Option.some.inj addressed
  have ids : update.entityIds = [⟨9⟩, ⟨7⟩, ⟨9⟩] := by decide +kernel
  have known : (before.store.guild? ⟨1⟩).isSome := by decide +kernel
  have named : before.store.guildField ⟨1⟩ "name" = some (.str "a") := by decide +kernel
  refine ⟨by decide +kernel, ?_, by decide +kernel, ?_, ?_, by decide +kernel⟩
  · apply Snowflake.eq_of_ascending replaced.ascending (by decide)
    intro id
    rw [replaced.ids, ids]
    grind
  · rw [replaced.listed known, ids]
    decide +kernel
  · rw [replaced.edited.fields "name" (by decide), named]

end Cache

end GatewayCache
