import GatewayCache.Proofs.Cache.Replacement
import GatewayCache.Proofs.Update.Reading

/-! # Updates that can be performed twice

What is read from a value in order has its own payloads in order. For most updates
this is all that performing them twice needs; where a list of a guild is edited
besides, none of the payloads is a guild, and where a set is replaced, only users are
embedded in the new ones.
-/

namespace GatewayCache

open Store

namespace Update

/-- What the payloads of an update have to be like for it to be performed twice. -/
def Repeatable : Update → Prop
  | .guildAvailable split | .guildPending split | .guildChanged split | .banAdded _ split
  | .banLifted _ split | .integrationAdded split | .integrationChanged split | .changed split
  | .voiceChanged split => split.InOrder
  | .roleAdded _ split | .roleChanged _ split | .added split =>
    split.InOrder ∧ ∀ record ∈ split.records, record.kind ≠ .guild
  | .emojisReplaced _ splits => Cache.Leaves .emoji splits
  | .stickersReplaced _ splits => Cache.Leaves .sticker splits
  | .membersListed _ splits _ => ∀ split ∈ splits, split.InOrder
  | .removed kind _ _ => kind ≠ .guild
  | .guildOutage _ | .guildLeft _ | .webhooksChanged _ _ | .integrationRemoved _ _ _ => True

theorem fieldsOf_ordered {kind : UpdateKind} {data : Json} {fields : Fields}
    (reads : fieldsOf kind data = .ok fields) (ordered : data.ordered) : fields.ordered := by
  obtain rfl := Cache.eq_obj_of_fieldsOf reads
  exact ordered

theorem require_ordered {kind : UpdateKind} {fields : Fields} {field : String} {value : Json}
    (reads : require kind fields field = .ok value) (ordered : fields.ordered) : value.ordered :=
  Fields.ordered_of_get? ordered (get?_of_require reads)

theorem mem_splitList {update : UpdateKind} {fields : Fields} {field : String} {kind : Kind}
    {guild : Snowflake} {splits : List Split}
    (reads : splitList update fields field kind guild = .ok splits) (ordered : fields.ordered)
    {split : Split} (member : split ∈ splits) :
    ∃ item : Json, item.ordered ∧ Split.ofJson kind (some guild) item = .ok split := by
  obtain ⟨items, found, each⟩ := eachApart_of_splitList reads
  obtain ⟨item, here, apart⟩ := entity_of_eachApart each member
  have list : (Json.arr items).ordered := Fields.ordered_of_get? ordered found
  simp only [Json.ordered, itemsOrdered_iff] at list
  exact ⟨item, list item here, apart⟩

theorem splitList_leaves {update : UpdateKind} {fields : Fields} {field : String} {kind : Kind}
    {guild : Snowflake} {splits : List Split}
    (reads : splitList update fields field kind guild = .ok splits) (ordered : fields.ordered)
    (leads : Split.LeadsTo (· = .user) kind) : Cache.Leaves kind splits := by
  refine ⟨?_, ?_, ?_⟩
  · intro split member
    obtain ⟨item, sorted, apart⟩ := mem_splitList reads ordered member
    exact Split.ofJson_ordered apart sorted
  · intro split member
    obtain ⟨item, sorted, apart⟩ := mem_splitList reads ordered member
    exact Split.ofJson_root_kind apart
  · intro split member
    obtain ⟨item, sorted, apart⟩ := mem_splitList reads ordered member
    exact Split.ofJson_users apart sorted leads

/-- Whatever is read can be performed twice. -/
def YieldsRepeatable (reading : Except CacheError Update) : Prop :=
  ∀ update, reading = .ok update → update.Repeatable

namespace YieldsRepeatable

theorem ok {update : Update} (repeatable : update.Repeatable) : YieldsRepeatable (.ok update) :=
  Yields.ok repeatable

theorem error (error : CacheError) : YieldsRepeatable (.error error) :=
  Yields.error error

theorem bind {α : Type} {first : Except CacheError α} {next : α → Except CacheError Update}
    (yields : ∀ value, first = .ok value → YieldsRepeatable (next value)) :
    YieldsRepeatable (first >>= next) :=
  Yields.bind yields

end YieldsRepeatable

theorem readGuildCreate_repeatable {fields : Fields} (ordered : fields.ordered) :
    YieldsRepeatable (readGuildCreate fields) := by
  refine .bind fun _ _ => ?_
  split
  · refine .bind fun split apart => .ok ?_
    exact Split.ofFields_ordered apart ordered
  · refine .bind fun split apart => .ok ?_
    exact Split.ofFields_ordered apart (Fields.ordered_insert ordered rfl)

theorem readBan_repeatable {kind : UpdateKind} {fields : Fields} (ordered : fields.ordered)
    {become : Snowflake → Split → Update}
    (repeatable : ∀ guild split, split.InOrder → (become guild split).Repeatable) :
    YieldsRepeatable (readBan kind fields become) := by
  refine .bind fun guild _ => ?_
  refine .bind fun user found => ?_
  refine .bind fun split apart => .ok ?_
  exact repeatable guild split (Split.ofJson_ordered apart (require_ordered found ordered))

theorem readRole_repeatable {kind : UpdateKind} {fields : Fields} (ordered : fields.ordered)
    {become : Snowflake → Split → Update}
    (repeatable : ∀ guild split, split.InOrder →
      (∀ record ∈ split.records, record.kind ≠ .guild) → (become guild split).Repeatable) :
    YieldsRepeatable (readRole kind fields become) := by
  refine .bind fun guild _ => ?_
  refine .bind fun role found => ?_
  refine .bind fun split apart => .ok ?_
  have data := require_ordered found ordered
  exact repeatable guild split (Split.ofJson_ordered apart data)
    (Split.ofJson_not_guild apart data (by decide))

theorem readMembersChunk_repeatable {fields : Fields} (ordered : fields.ordered) :
    YieldsRepeatable (readMembersChunk fields) := by
  refine .bind fun guild _ => ?_
  refine .bind fun members reads => ?_
  simp only
  split
  · exact .error _
  · refine .ok fun split member => ?_
    obtain ⟨item, sorted, apart⟩ := mem_splitList reads ordered member
    exact Split.ofJson_ordered apart sorted

theorem readVoiceState_repeatable {fields : Fields} (ordered : fields.ordered) :
    YieldsRepeatable (readVoiceState fields) := by
  refine .bind fun guild _ => ?_
  refine .bind fun id _ => ?_
  have left : (Update.removed .voiceState (.scoped guild id) none).Repeatable :=
    fun same => Kind.noConfusion same
  split
  · exact .ok left
  · exact .ok left
  · refine .bind fun split apart => .ok ?_
    exact Split.ofFields_ordered apart ordered

theorem readAdded_repeatable {kind : Kind} {data : Json} (ordered : data.ordered)
    (other : kind ≠ .guild) :
    YieldsRepeatable (Split.ofJson kind none data >>= fun split => .ok (.added split)) := by
  refine .bind fun split apart => .ok ?_
  exact ⟨Split.ofJson_ordered apart ordered, Split.ofJson_not_guild apart ordered other⟩

theorem readPlaced_repeatable {kind : Kind} {data : Json} (ordered : data.ordered)
    {become : Split → Update}
    (repeatable : ∀ split, split.InOrder → (become split).Repeatable) :
    YieldsRepeatable (Split.ofJson kind none data >>= fun split => .ok (become split)) := by
  refine .bind fun split apart => .ok ?_
  exact repeatable split (Split.ofJson_ordered apart ordered)

/-- Whatever is read from an ordered value can be performed twice. -/
theorem read_repeatable (kind : UpdateKind) {data : Json} (ordered : data.ordered) :
    YieldsRepeatable (Update.read kind data) := by
  have fieldsOrdered : ∀ {kind : UpdateKind} {fields : Fields}, fieldsOf kind data = .ok fields →
      fields.ordered := fun reads => fieldsOf_ordered reads ordered
  cases kind with
  | guildCreate => exact .bind fun fields reads => readGuildCreate_repeatable (fieldsOrdered reads)
  | guildDelete =>
    refine .bind fun fields _ => ?_
    refine .bind fun guild _ => ?_
    split <;> exact .ok trivial
  | guildBanAdd | guildBanRemove =>
    exact .bind fun fields reads => readBan_repeatable (fieldsOrdered reads) fun _ _ sorted => sorted
  | guildEmojisUpdate =>
    refine .bind fun fields reads => ?_
    refine .bind fun guild _ => ?_
    refine .bind fun emojis taken => .ok ?_
    exact splitList_leaves taken (fieldsOrdered reads) (by unfold Split.LeadsTo; decide)
  | guildStickersUpdate =>
    refine .bind fun fields reads => ?_
    refine .bind fun guild _ => ?_
    refine .bind fun stickers taken => .ok ?_
    exact splitList_leaves taken (fieldsOrdered reads) (by unfold Split.LeadsTo; decide)
  | webhooksUpdate | integrationDelete =>
    refine .bind fun fields _ => ?_
    refine .bind fun _ _ => ?_
    exact .bind fun _ _ => .ok trivial
  | guildMembersChunk =>
    exact .bind fun fields reads => readMembersChunk_repeatable (fieldsOrdered reads)
  | guildRoleCreate | guildRoleUpdate =>
    exact .bind fun fields reads =>
      readRole_repeatable (fieldsOrdered reads) fun _ _ sorted other => ⟨sorted, other⟩
  | guildMemberRemove | guildRoleDelete =>
    refine .bind fun fields _ => ?_
    refine .bind fun guild _ => ?_
    exact .bind fun id _ => .ok fun same => Kind.noConfusion same
  | channelDelete | threadDelete | messageDelete | autoModRuleDelete =>
    refine .bind fun fields _ => ?_
    exact .bind fun id _ => .ok fun same => Kind.noConfusion same
  | guildMemberAdd | channelCreate | threadCreate | messageCreate | autoModRuleCreate =>
    exact readAdded_repeatable ordered (by decide)
  | guildUpdate | integrationCreate | integrationUpdate | guildMemberUpdate | channelUpdate
  | threadUpdate | messageUpdate | autoModRuleUpdate =>
    exact readPlaced_repeatable ordered fun _ sorted => sorted
  | voiceStateUpdate =>
    exact .bind fun fields reads => readVoiceState_repeatable (fieldsOrdered reads)

end Update

end GatewayCache
