import GatewayCache.Cache.Standing
import GatewayCache.Proofs.Split.Parts
import GatewayCache.Proofs.Update.Payloads
import GatewayCache.Proofs.Update.Repeatable

/-! # What updates tell of guilds

An update creates, deletes or changes a guild as its content tells, and no other update
writes the record of a guild as a whole. A creation marks the record by whether the
guild can be reached.
-/

namespace GatewayCache

open Store

namespace Update

/-- The guild that an update creates or deletes. -/
def reported? : Update → Option Snowflake
  | .guildAvailable split | .guildPending split => some split.root.id
  | .guildOutage guild | .guildLeft guild => some guild
  | _ => none

/-- Whether an update says that a guild cannot be reached. -/
def isOutage : Update → Bool
  | .guildPending _ | .guildOutage _ => true
  | _ => false

/-- The payload of a guild that was taken apart. -/
structure OfGuild (split : Split) : Prop where
  kind : split.root.kind = .guild
  key : split.root.key = .global split.root.id
  ordered : split.root.fields.ordered
  embedded : ∀ record ∈ split.embedded, record.kind ≠ .guild

/-- What an update writes about guilds: nothing, but for the payload of a guild itself. A creation says
whether the guild can be reached, and a change says only what its payload does. -/
def Marks (dispatch : Dispatch) : Update → Prop
  | .guildAvailable split =>
    OfGuild split ∧ split.root.fields.get? "unavailable" = some (.bool false)
  | .guildPending split =>
    OfGuild split ∧ split.root.fields.get? "unavailable" = some (.bool true)
  | .guildChanged split =>
    OfGuild split ∧ ∃ fields, dispatch.fieldsAs? .guildUpdate = some fields ∧
      split.root.fields.get? "unavailable" = fields.get? "unavailable"
  | .removed kind _ _ => kind ≠ .guild
  | update => ∀ split ∈ update.splits, ∀ record ∈ split.records, record.kind ≠ .guild

variable {fields : Fields} {data : Json} {kind : UpdateKind} {split : Split} {dispatch : Dispatch}

theorem saysUnavailable_iff :
    saysUnavailable fields ↔ fields.get? "unavailable" = some (.bool true) := by
  unfold saysUnavailable Fields.bool?
  cases fields.get? "unavailable" with
  | none => simp
  | some value => cases value <;> simp [Json.bool?]

/-- A guild as a part of nothing else. -/
abbrev guildPart (fields : Fields) : Part := ⟨.guild, ⟨none, none⟩, fields⟩

theorem ofGuild (apart : Split.ofFields .guild none fields = .ok split) (ordered : fields.ordered) :
    OfGuild split where
  kind := (Split.ofFields_root apart).1
  key := guild_root_key apart
  ordered := Split.ofFields_ordered apart ordered split.root (by simp [Split.records])
  embedded record member := by
    have whole : (guildPart fields).split = .ok split := apart
    have notMessage : (guildPart fields).kind ≠ .message := Kind.noConfusion
    exact Part.kind_ne_of_embedded notMessage whole member

theorem unavailable_root (apart : Split.ofFields .guild none fields = .ok split) :
    split.root.fields.get? "unavailable" = fields.get? "unavailable" := by
  have whole : (guildPart fields).split = .ok split := apart
  have unrelated : Split.Unrelated .guild "unavailable" := by decide
  rw [Part.get?_root whole (fun _ => by decide) unrelated, Split.get?_withGuild (by decide)]

theorem readGuildCreate_marks (ordered : fields.ordered) :
    Yields (Marks ⟨"GUILD_CREATE", .obj fields⟩) (readGuildCreate fields) := by
  refine .bind fun guild _ => ?_
  by_cases unavailable : saysUnavailable fields
  · rw [if_pos unavailable]
    refine .bind fun split apart => .ok ⟨ofGuild apart ordered, ?_⟩
    rw [unavailable_root apart, saysUnavailable_iff.mp unavailable]
  · rw [if_neg unavailable]
    refine .bind fun split apart => .ok ⟨ofGuild apart (Fields.ordered_insert ordered rfl), ?_⟩
    rw [unavailable_root apart, Fields.get?_insert_self]

theorem readGuildUpdate_marks (ordered : data.ordered) :
    Yields (Marks ⟨"GUILD_UPDATE", data⟩) (Update.read .guildUpdate data) := by
  cases data with
  | obj fields =>
    refine .bind fun split apart => .ok ⟨ofGuild apart ordered, fields, rfl, ?_⟩
    exact unavailable_root apart
  | null | bool | num | str | arr => exact .bind fun split apart => by simp [Split.ofJson] at apart

theorem split_marks {target : Kind} {guild : Option Snowflake} {become : Split → Update}
    (marks : ∀ split : Split, (∀ record ∈ split.records, record.kind ≠ .guild) →
      Marks dispatch (become split))
    (ordered : data.ordered) (other : target ≠ .guild) :
    Yields (Marks dispatch) (Split.ofJson target guild data >>= fun split => .ok (become split)) :=
  .bind fun split apart => .ok (marks split (Split.ofJson_not_guild apart ordered other))

theorem readMembersChunk_marks (ordered : fields.ordered) :
    Yields (Marks dispatch) (readMembersChunk fields) := by
  refine .bind fun guild _ => ?_
  refine .bind fun members reads => ?_
  simp only
  split
  · exact .error _
  · refine .ok fun split member => ?_
    obtain ⟨item, sorted, apart⟩ := mem_splitList reads ordered member
    exact Split.ofJson_not_guild apart sorted (by decide)

theorem readVoiceState_marks (ordered : fields.ordered) :
    Yields (Marks dispatch) (readVoiceState fields) := by
  refine .bind fun guild _ => ?_
  refine .bind fun id _ => ?_
  have left : Marks dispatch (.removed .voiceState (.scoped guild id) none) := Kind.noConfusion
  have whole : (Json.obj fields).ordered := ordered
  split
  · exact .ok left
  · exact .ok left
  · have data : Split.ofFields .voiceState (some guild) fields =
        Split.ofJson .voiceState (some guild) (.obj fields) := rfl
    rw [data]
    exact split_marks (fun split others => by simpa [Marks, splits] using others) whole (by decide)

theorem readBan_marks {become : Snowflake → Split → Update}
    (marks : ∀ guild (split : Split), (∀ record ∈ split.records, record.kind ≠ .guild) →
      Marks dispatch (become guild split))
    (ordered : fields.ordered) : Yields (Marks dispatch) (readBan kind fields become) := by
  refine .bind fun guild _ => ?_
  refine .bind fun user found => ?_
  exact split_marks (marks guild) (require_ordered found ordered) (by decide)

theorem readRole_marks {become : Snowflake → Split → Update}
    (marks : ∀ guild (split : Split), (∀ record ∈ split.records, record.kind ≠ .guild) →
      Marks dispatch (become guild split))
    (ordered : fields.ordered) : Yields (Marks dispatch) (readRole kind fields become) := by
  refine .bind fun guild _ => ?_
  refine .bind fun role found => ?_
  exact split_marks (marks guild) (require_ordered found ordered) (by decide)

theorem read_marks (dispatch : Dispatch) (known : UpdateKind.ofName? dispatch.name = some kind)
    (ordered : dispatch.data.ordered) :
    Yields (Marks dispatch) (Update.read kind dispatch.data) := by
  obtain ⟨name, data⟩ := dispatch
  obtain rfl : name = kind.name := UpdateKind.name_of_ofName? known
  cases kind with
  | guildCreate =>
    refine .bind fun fields reads => ?_
    have sorted := fieldsOf_ordered reads ordered
    obtain rfl := Cache.eq_obj_of_fieldsOf reads
    exact readGuildCreate_marks sorted
  | guildUpdate => exact readGuildUpdate_marks ordered
  | guildDelete =>
    refine .bind fun fields _ => ?_
    refine .bind fun guild _ => ?_
    split <;> exact .ok (by simp [Marks, splits])
  | guildBanAdd | guildBanRemove =>
    refine .bind fun fields reads => readBan_marks (fun guild split others => ?_)
      (fieldsOf_ordered reads ordered)
    simpa [Marks, splits] using others
  | guildEmojisUpdate | guildStickersUpdate =>
    refine .bind fun fields reads => ?_
    refine .bind fun guild _ => ?_
    refine .bind fun found taken => .ok fun split member => ?_
    obtain ⟨item, sorted, apart⟩ := mem_splitList taken (fieldsOf_ordered reads ordered) member
    exact Split.ofJson_not_guild apart sorted (by decide)
  | webhooksUpdate | integrationDelete =>
    refine .bind fun fields _ => ?_
    refine .bind fun _ _ => ?_
    exact .bind fun _ _ => .ok (by simp [Marks, splits])
  | guildMembersChunk =>
    exact .bind fun fields reads => readMembersChunk_marks (fieldsOf_ordered reads ordered)
  | guildRoleCreate | guildRoleUpdate =>
    refine .bind fun fields reads => readRole_marks (fun guild split others => ?_)
      (fieldsOf_ordered reads ordered)
    simpa [Marks, splits] using others
  | guildMemberRemove | guildRoleDelete =>
    refine .bind fun fields _ => ?_
    refine .bind fun guild _ => ?_
    exact .bind fun id _ => .ok Kind.noConfusion
  | channelDelete | threadDelete | messageDelete | autoModRuleDelete =>
    refine .bind fun fields _ => ?_
    exact .bind fun id _ => .ok Kind.noConfusion
  | integrationCreate | integrationUpdate | guildMemberAdd | guildMemberUpdate | channelCreate
  | channelUpdate | threadCreate | threadUpdate | messageCreate | messageUpdate | autoModRuleCreate
  | autoModRuleUpdate =>
    exact split_marks (fun split others => by simpa [Marks, splits] using others) ordered (by decide)
  | voiceStateUpdate =>
    exact .bind fun fields reads => readVoiceState_marks (fieldsOf_ordered reads ordered)

/-- The content of an update agrees with what is read from it on who is reported, and how. -/
def Reported (dispatch : Dispatch) (update : Update) : Prop :=
  dispatch.reported? = update.reported? ∧
    (update.reported?.isSome → dispatch.saysUnavailable = update.isOutage)

theorem readGuildCreate_reported (fields : Fields) :
    Yields (Reported ⟨"GUILD_CREATE", .obj fields⟩) (readGuildCreate fields) := by
  refine .bind fun guild required => ?_
  have named : Dispatch.reported? ⟨"GUILD_CREATE", .obj fields⟩ = some guild :=
    relationId_of_requireId required
  by_cases unavailable : saysUnavailable fields
  · rw [if_pos unavailable]
    refine .bind fun split apart => .ok ⟨?_, fun _ => unavailable⟩
    rw [named, Cache.requireId_eq_root required apart, reported?]
  · rw [if_neg unavailable]
    refine .bind fun split apart => .ok ⟨?_, fun _ => Bool.eq_false_iff.mpr unavailable⟩
    rw [named, Cache.requireId_eq_root_available required apart, reported?]

theorem readGuildDelete_reported (fields : Fields) :
    Yields (Reported ⟨"GUILD_DELETE", .obj fields⟩) (readGuildDelete fields) := by
  refine .bind fun guild required => .ok ?_
  have named : Dispatch.reported? ⟨"GUILD_DELETE", .obj fields⟩ = some guild :=
    relationId_of_requireId required
  by_cases unavailable : saysUnavailable fields
  · rw [if_pos unavailable]
    exact ⟨named, fun _ => unavailable⟩
  · rw [if_neg unavailable]
    exact ⟨named, fun _ => Bool.eq_false_iff.mpr unavailable⟩

theorem read_reported (dispatch : Dispatch) (known : UpdateKind.ofName? dispatch.name = some kind) :
    Yields (Reported dispatch) (Update.read kind dispatch.data) := by
  obtain ⟨name, data⟩ := dispatch
  obtain rfl : name = kind.name := UpdateKind.name_of_ofName? known
  by_cases create : kind = .guildCreate
  · subst create
    refine .bind fun fields reads => ?_
    obtain rfl := Cache.eq_obj_of_fieldsOf reads
    exact readGuildCreate_reported fields
  by_cases delete : kind = .guildDelete
  · subst delete
    refine .bind fun fields reads => ?_
    obtain rfl := Cache.eq_obj_of_fieldsOf reads
    exact readGuildDelete_reported fields
  intro update reads
  have fits := read_fits kind data update reads
  have silent : update.reported? = none := by
    cases update with
    | guildAvailable | guildPending => exact absurd fits.1 create
    | guildOutage | guildLeft => exact absurd fits delete
    | _ => rfl
  refine ⟨?_, by simp [silent]⟩
  simp [Dispatch.reported?, Dispatch.fieldsAs?, UpdateKind.name_ne create, UpdateKind.name_ne delete,
    silent]

theorem obj_of_fieldsAs? (found : dispatch.fieldsAs? kind = some fields) :
    UpdateKind.ofName? dispatch.name = some kind ∧ dispatch.data = .obj fields := by
  unfold Dispatch.fieldsAs? at found
  split at found
  · next named =>
    exact ⟨by rw [named, UpdateKind.ofName?_name], Json.eq_obj_of_fields? found⟩
  · cases found

theorem ofFields_guild {guild : Snowflake}
    (required : requireId .guildCreate fields "id" = .ok guild) :
    ∃ split, Split.ofFields .guild none fields = .ok split := by
  have identified : Kind.guild.identify fields = .ok guild := by
    unfold requireId at required
    unfold Kind.identify Kind.identifier?
    cases found : fields.get? "id" with
    | none => simp [found] at required
    | some value => cases value <;> simp_all
  simp only [Split.ofFields, Split.maxLevels, Split.nested, Split.step, identified, bind, Except.bind,
    Split.keyOf, Kind.isScoped, Bool.false_eq_true, if_false]
  exact ⟨_, rfl⟩

/-- The creation of a guild that can be reached is never refused. -/
theorem read_available {guild : Snowflake} (available : dispatch.available? = some guild) :
    UpdateKind.ofName? dispatch.name = some .guildCreate ∧
      ∃ split, Update.read .guildCreate dispatch.data = .ok (.guildAvailable split) ∧
        split.root.kind = .guild ∧ split.root.key = .global split.root.id ∧
        split.root.id = guild := by
  cases found : dispatch.fieldsAs? .guildCreate with
  | none => simp [Dispatch.available?, found] at available
  | some fields =>
    obtain ⟨known, data⟩ := obj_of_fieldsAs? found
    by_cases unavailable : saysUnavailable fields
    · simp [Dispatch.available?, found, unavailable] at available
    · have named : fields.relationId "id" = some guild := by
        simpa [Dispatch.available?, found, unavailable] using available
      have required := requireId_of_relationId .guildCreate named
      have kept : "id" ≠ "unavailable" := by decide
      obtain ⟨split, apart⟩ := ofFields_guild
        ((Cache.requireId_insert kept fields (.bool false)).trans required)
      refine ⟨known, split, ?_, (Split.ofFields_root apart).1, guild_root_key apart,
        (Cache.requireId_eq_root_available required apart).symm⟩
      simp only [data, Update.read, fieldsOf, readGuildCreate, required, unavailable, apart, bind,
        Except.bind, Bool.false_eq_true, if_false]

theorem read_outage {guild : Snowflake} (outage : dispatch.outage? = some guild) :
    UpdateKind.ofName? dispatch.name = some .guildDelete ∧
      Update.read .guildDelete dispatch.data = .ok (.guildOutage guild) := by
  cases found : dispatch.fieldsAs? .guildDelete with
  | none => simp [Dispatch.outage?, found] at outage
  | some fields =>
    obtain ⟨known, data⟩ := obj_of_fieldsAs? found
    by_cases unavailable : saysUnavailable fields
    · have named : fields.relationId "id" = some guild := by
        simpa [Dispatch.outage?, found, unavailable] using outage
      have required := requireId_of_relationId .guildDelete named
      refine ⟨known, ?_⟩
      simp only [data, Update.read, fieldsOf, readGuildDelete, required, unavailable, bind,
        Except.bind, if_true]
    · simp [Dispatch.outage?, found, unavailable] at outage

end Update

end GatewayCache
