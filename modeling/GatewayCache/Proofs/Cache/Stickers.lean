import GatewayCache.Proofs.Cache.Isolation
import GatewayCache.Proofs.Json.Reader
import GatewayCache.Proofs.Split.Guilds
import GatewayCache.Proofs.Store.Hiding
import GatewayCache.Proofs.Update.Entities

/-! # Stickers that are replaced

Stickers live outside of guilds, so which ones a guild had is read off the list in its
record. A sticker that the list does not have outlives the update, be it that the
guild is not known or that its list was cut short, and a sticker comes to the guild
only if its payload does not spoil the field for it.
-/

namespace GatewayCache

open Store

namespace Store

theorem relationId_contentAfter {writes : List Record} {field : String}
    (each : ∀ write ∈ writes, write.fields.ordered ∧ write.fields.contains field)
    (content : Option Fields) (kind : Kind) (key : Key) :
    (contentAfter content kind key writes).bind (·.relationId field) =
      match writes.reverse.find? (fun write => (write.kind, write.key) = (kind, key)) with
      | some last => last.fields.relationId field
      | none => content.bind (·.relationId field) := by
  -- The last write to the cell decides, so the writes are taken from their end.
  induction writes using List.reverseRecOn with
  | nil => rfl
  | append_singleton front last ih =>
    have before := ih fun write member => each write (List.mem_append_left _ member)
    obtain ⟨ordered, has⟩ := each last (by simp)
    rw [contentAfter_concat, List.reverse_append, List.reverse_singleton, List.singleton_append,
      List.find?_cons]
    by_cases here : (last.kind, last.key) = (kind, key)
    · simp only [here, if_true, decide_true, Option.bind_some]
      cases contentAfter content kind key front with
      | none => rfl
      | some old => exact Fields.relationId_merge_of_contains ordered has old
    · simp only [here, if_false, decide_false]
      exact before

end Store

namespace Dispatch

variable {dispatch : Dispatch} {id : Snowflake}

theorem mem_entityIds_iff :
    id ∈ dispatch.entityIds ↔ ∃ payload, dispatch.lastEntity? id = some payload := by
  rw [entityIds, List.mem_filterMap]
  constructor
  · rintro ⟨entity, among, named⟩
    have found : (dispatch.entities.reverse.find? (fun payload => payload.ownId? = some id)).isSome := by
      rw [List.find?_isSome]
      exact ⟨entity, List.mem_reverse.mpr among, by simpa using named⟩
    obtain ⟨last, here⟩ := Option.isSome_iff_exists.mp found
    have own : last.ownId? = some id := by simpa using List.find?_some here
    cases object : last.fields? with
    | none => simp [Json.ownId?, Json.get?, object] at own
    | some payload => exact ⟨payload, by simp [lastEntity?, here, object]⟩
  · rintro ⟨payload, found⟩
    obtain ⟨last, here, -⟩ := Option.bind_eq_some_iff.mp found
    have own : last.ownId? = some id := by simpa using List.find?_some here
    exact ⟨last, List.mem_reverse.mp (List.mem_of_find?_eq_some here), own⟩

theorem entities_ordered (ordered : dispatch.data.ordered) :
    ∀ entity ∈ dispatch.entities, entity.ordered := by
  intro entity among
  simp only [entities] at among
  split at among
  · next items found =>
    simp only [Option.bind_eq_bind, Option.bind_eq_some_iff] at found
    obtain ⟨kind, -, field, -, held⟩ := found
    have list := Json.ordered_of_get? ordered held
    rw [Json.ordered, itemsOrdered_iff] at list
    exact list entity among
  · next value _ found =>
    simp only [Option.bind_eq_bind, Option.bind_eq_some_iff] at found
    obtain ⟨kind, -, field, -, held⟩ := found
    rw [List.mem_singleton.mp among]
    exact Json.ordered_of_get? ordered held
  · cases among

/-- Where the last entries decide who is named, and earlier names stay that are not listed, those in the
update are named and no other if and only if every last entry names and all earlier names go. -/
theorem replaced_iff {names named listed : Snowflake → Prop} {clean : Fields → Prop}
    (decided : ∀ id, names id ↔
      match dispatch.lastEntity? id with
      | some payload => clean payload
      | none => named id ∧ ¬ listed id) :
    (∀ id, names id ↔ id ∈ dispatch.entityIds) ↔
      (∀ id payload, dispatch.lastEntity? id = some payload → clean payload) ∧
        ∀ id, named id → id ∉ dispatch.entityIds → listed id := by
  constructor
  · intro replaced
    constructor
    · intro id payload last
      have now := (decided id).mp ((replaced id).mpr (mem_entityIds_iff.mpr ⟨payload, last⟩))
      rwa [last] at now
    · intro id before absent
      have unknown : dispatch.lastEntity? id = none := by
        simpa [mem_entityIds_iff, Option.eq_none_iff_forall_ne_some] using absent
      have gone := mt (replaced id).mp absent
      rw [decided id, unknown] at gone
      simpa [before] using gone
  · rintro ⟨cleanly, gone⟩ id
    rw [decided id, mem_entityIds_iff]
    cases last : dispatch.lastEntity? id with
    | some payload => simp [cleanly id payload last]
    | none =>
      have absent : id ∉ dispatch.entityIds := by simp [mem_entityIds_iff, last]
      simpa using fun before => gone id before absent

end Dispatch

namespace Update

theorem find?_of_eachApart {guild : Snowflake} {items : List Json} {splits : List Split}
    (apart : EachApart .sticker guild items splits) (id : Snowflake) :
    let record? := (splits.map Split.root).find? fun write =>
      (write.kind, write.key) = (Kind.sticker, Key.global id)
    match (items.find? (fun payload => payload.ownId? = some id)).bind Json.fields? with
    | some payload => ∃ split, Split.ofJson .sticker (some guild) (.obj payload) = .ok split ∧
        split ∈ splits ∧ record? = some split.root
    | none => record? = none := by
  induction apart with
  | nil => rfl
  | @cons item split rest others first _ ih =>
    obtain ⟨payload, rfl, parts⟩ := Split.obj_of_ofJson first
    have own := Split.ownId?_of_ofJson (fun _ => rfl) first
    have kind := Split.ofJson_root_kind first
    have key : split.root.key = .global split.root.id := by
      have addressed := Split.ofFields_address parts
      simp only [address?, Kind.isScoped, Bool.false_eq_true, if_false, Option.some.injEq] at addressed
      exact addressed.symm
    by_cases same : split.root.id = id
    · simpa [own, kind, key, same, Json.fields?] using ⟨split, first, .inl rfl, rfl⟩
    · have later : (Json.obj payload).ownId? ≠ some id := by simpa [own] using same
      rw [List.find?_cons_of_neg (by simpa using later), List.map_cons,
        List.find?_cons_of_neg (by simp [kind, key, same])]
      cases found : (rest.find? (fun payload => payload.ownId? = some id)).bind Json.fields? with
      | none => simpa [found] using ih
      | some last =>
        simp only [found] at ih
        obtain ⟨other, taken, among, here⟩ := ih
        exact ⟨other, taken, List.mem_cons_of_mem split among, here⟩

end Update

namespace Cache

variable {config : Config} {store : Store} {guild id : Snowflake} {items : List Json}
  {splits : List Split}

theorem names_sticker_iff : store.Names .sticker guild id ↔
    (store.fieldsAt .sticker (.global id)).bind (·.relationId "guild_id") = some guild := by
  rw [names_iff rfl, Option.bind_eq_some_iff]
  rfl

theorem mem_stale_stickers :
    id ∈ staleIds (stickersOf store guild) ((store.placeAll config splits).1.map Change.after) ↔
      (id ∈ store.listed guild "sticker_ids" ∧ (store.fieldsAt .sticker (.global id)).isSome) ∧
        id ∉ splits.map (fun split => split.root.id) := by
  rw [mem_staleIds, mem_stickersOf, placeAll_ids]

/-- What is left of a sticker: nothing if it is listed and not in the update, or else what the entries of
the update make of it. -/
theorem fieldsAt_stickersLeft (apart : Update.EachApart .sticker guild items splits) :
    (stickersLeft config store guild splits).fieldsAt .sticker (.global id) =
      if id ∈ store.listed guild "sticker_ids" ∧ id ∉ splits.map (fun split => split.root.id) then none
      else contentAfter (store.fieldsAt .sticker (.global id)) .sticker (.global id)
        (splits.map Split.root) := by
  rw [stickersLeft_eq, fieldsAt_setList (by decide), fieldsAt_deletes_eq fun _ => rfl,
    fieldsAt_placeAll_own rfl apart rfl (by decide)]
  by_cases goes : id ∈ store.listed guild "sticker_ids" ∧ id ∉ splits.map (fun split => split.root.id)
  · rw [if_pos goes, contentAfter_roots_of_absent goes.2]
    split
    · rfl
    · next kept =>
      cases found : store.fieldsAt .sticker (.global id) with
      | none => rfl
      | some fields =>
        exact absurd ⟨id, mem_stale_stickers.mpr ⟨⟨goes.1, by simp [found]⟩, goes.2⟩, rfl⟩ kept
  · rw [if_neg goes, if_neg]
    rintro ⟨stale, member, ⟨⟩⟩
    obtain ⟨⟨listed, -⟩, old⟩ := mem_stale_stickers.mp member
    exact goes ⟨listed, old⟩

theorem guild?_of_sticker {payload : Fields} {split : Split}
    (apart : (Part.ofPayload .sticker (some guild) payload).split = .ok split)
    (own : ∀ other, payload.relationId "guild_id" = some other → other = guild) :
    (Part.ofPayload .sticker (some guild) payload).guild? = some guild := by
  rw [Part.guild?_of_split apart (by simp [Part.ofPayload]), Part.ofPayload]
  cases named : payload.relationId "guild_id" with
  | none => rfl
  | some other => rw [own other named]; rfl

theorem contains_guild_of_root {payload : Fields} {split : Split}
    (apart : (Part.ofPayload .sticker (some guild) payload).split = .ok split)
    (own : ∀ other, payload.relationId "guild_id" = some other → other = guild) :
    split.root.fields.contains "guild_id" := by
  rw [Fields.contains, Part.get?_root_guild apart]
  apply Part.contains_withGuild rfl
  rw [guild?_of_sticker apart own]
  rfl

/-- Which stickers name the guild after a replacement is decided for each id by the last entry of it, and
where there is none by what was stored before. -/
theorem names_stickersLeft {dispatch : Dispatch} (ordered : ∀ entry ∈ dispatch.entities, entry.ordered)
    (apart : Update.EachApart .sticker guild dispatch.entities splits)
    (own : ∀ entry ∈ dispatch.entities, ∀ other, entry.owner? = some other → other = guild) :
    (stickersLeft config store guild splits).Names .sticker guild id ↔
      match dispatch.lastEntity? id with
      | some payload => ¬ (Part.ofPayload .sticker (some guild) payload).Garbled
      | none => store.Names .sticker guild id ∧ id ∉ store.listed guild "sticker_ids" := by
  -- Each entry writes the field, readable or not, so nothing that was there before shows through.
  have each : ∀ write ∈ splits.map Split.root,
      write.fields.ordered ∧ write.fields.contains "guild_id" := by
    intro write member
    obtain ⟨split, here, rfl⟩ := List.mem_map.mp member
    obtain ⟨entry, among, taken⟩ := Update.entity_of_eachApart apart here
    obtain ⟨payload, rfl, parts⟩ := Split.obj_of_ofJson taken
    have sorted := Split.ofJson_ordered taken (ordered _ among) split.root (by simp [Split.records])
    exact ⟨sorted, contains_guild_of_root parts (own _ among)⟩
  have ids : dispatch.entityIds = splits.map (fun split => split.root.id) :=
    Update.ownIds_of_eachApart (fun _ => rfl) apart
  have last := Update.find?_of_eachApart (List.rel_reverse apart) id
  rw [List.map_reverse, ← Dispatch.lastEntity?] at last
  rw [names_sticker_iff, fieldsAt_stickersLeft apart]
  cases found : dispatch.lastEntity? id with
  | some payload =>
    have new : id ∈ splits.map (fun split => split.root.id) := by
      rw [← ids, Dispatch.mem_entityIds_iff]
      exact ⟨payload, found⟩
    simp only [found] at last
    obtain ⟨split, taken, -, here⟩ := last
    have among : Json.obj payload ∈ dispatch.entities := by
      obtain ⟨entity, there, object⟩ := Option.bind_eq_some_iff.mp found
      rw [← Json.eq_obj_of_fields? object]
      exact List.mem_reverse.mp (List.mem_of_find?_eq_some there)
    have known := guild?_of_sticker taken (own _ among)
    rw [if_neg (by simp [new]), relationId_contentAfter each, here]
    exact Part.relationId_root_guild_iff taken rfl (by simp [Part.ofPayload]) known
  | none =>
    have old : id ∉ splits.map (fun split => split.root.id) := by
      rw [← ids, Dispatch.mem_entityIds_iff, found]
      simp
    by_cases listed : id ∈ store.listed guild "sticker_ids"
    · simp [listed, old]
    · rw [if_neg (by simp [listed]), contentAfter_roots_of_absent old, ← names_sticker_iff]
      simp [listed]

/-- After the stickers of a guild are replaced by the entries of an update that name no other guild, those
name the guild that are in the update with a last entry that does not spoil the field for it, and those
that named it before and are neither in the update nor listed by the guild. So the stickers that name the
guild are the ones in the update if and only if no last entry spoils its guild and all stickers that named
it before are in the update or listed. -/
theorem apply_stickers_replaced (cache : Cache) (dispatch : Dispatch) {outcome : Outcome} {after : Cache}
    (update : dispatch.name = "GUILD_STICKERS_UPDATE") (ordered : dispatch.data.ordered)
    (own : ∀ entry ∈ dispatch.entities, ∀ other, entry.owner? = some other →
      dispatch.addressee? = some other)
    (done : cache.apply dispatch = (.ok outcome, after)) :
    ∃ guild, dispatch.addressee? = some guild ∧
      (∀ id, after.store.Names .sticker guild id ↔
        match dispatch.lastEntity? id with
        | some payload => ¬ (Part.ofPayload .sticker (some guild) payload).Garbled
        | none =>
          cache.store.Names .sticker guild id ∧ id ∉ cache.store.listed guild "sticker_ids") ∧
      ((∀ id, after.store.Names .sticker guild id ↔ id ∈ dispatch.entityIds) ↔
        (∀ id payload, dispatch.lastEntity? id = some payload →
          ¬ (Part.ofPayload .sticker (some guild) payload).Garbled) ∧
        ∀ id, cache.store.Names .sticker guild id → id ∉ dispatch.entityIds →
          id ∈ cache.store.listed guild "sticker_ids") := by
  obtain ⟨name, data⟩ := dispatch
  obtain rfl : name = UpdateKind.guildStickersUpdate.name := update
  obtain ⟨result, reads, rfl, rfl⟩ := of_apply_ok (UpdateKind.ofName?_name .guildStickersUpdate) done
  obtain ⟨guild, splits, addressed, apart, rfl⟩ := Update.read_set rfl rfl reads
  have sorted := Dispatch.entities_ordered ordered
  have inside : ∀ entry ∈ Dispatch.entities ⟨_, data⟩, ∀ other, entry.owner? = some other →
      other = guild := fun entry among other named =>
    Option.some.inj ((own entry among other named).symm.trans addressed)
  have names : ∀ id, (stickersLeft cache.config cache.store guild splits).Names .sticker guild id ↔ _ :=
    fun _ => names_stickersLeft sorted apart inside
  exact ⟨guild, addressed, names, Dispatch.replaced_iff names⟩

/-- The guild is not known, so a sticker of an earlier update stays beside the one that replaces it. -/
theorem apply_stickers_replaced_unlisted :
    let update (id : String) : Dispatch := ⟨"GUILD_STICKERS_UPDATE", .obj
      [("guild_id", .str "1"), ("stickers", .arr [.obj [("id", .str id)]])]⟩
    let before := (empty {}).applyAll [update "30"]
    let after := (before.apply (update "31")).2
    (update "31").entityIds = [⟨31⟩] ∧ after.store.Names .sticker ⟨1⟩ ⟨31⟩ ∧
      after.store.Names .sticker ⟨1⟩ ⟨30⟩ := by
  intro update before after
  have own : ∀ entry ∈ (update "31").entities, ∀ other, entry.owner? = some other →
      (update "31").addressee? = some other := Dispatch.own_of_owner? (by decide +kernel)
  obtain ⟨outcome, accepted⟩ : ∃ outcome, (before.apply (update "31")).1 = .ok outcome := ⟨_, rfl⟩
  have done : before.apply (update "31") = (.ok outcome, after) := Prod.ext accepted rfl
  obtain ⟨guild, addressed, names, -⟩ :=
    apply_stickers_replaced before (update "31") rfl (by decide +kernel) own done
  obtain rfl : ⟨1⟩ = guild := Option.some.inj addressed
  have ids : (update "31").entityIds = [⟨31⟩] := by decide +kernel
  have last : (update "31").lastEntity? ⟨31⟩ = some [("id", .str "31")] := by decide +kernel
  have older : (update "31").lastEntity? ⟨30⟩ = none := by decide +kernel
  refine ⟨ids, ?_, ?_⟩
  · rw [names, last]
    rintro ⟨present, -⟩
    exact absurd present (by decide +kernel)
  · rw [names, older]
    exact ⟨⟨_, rfl, rfl⟩, by decide +kernel⟩

end Cache

end GatewayCache
