import GatewayCache.Split.Part
import GatewayCache.Store
import GatewayCache.Update

/-! # The content of updates

The guild that an update is about, and the payloads of entities in it, as they can be
read off its value before anything is processed.
-/

namespace GatewayCache

namespace UpdateKind

/-- The field with the guild that an update is addressed to, for the kinds that touch what is inside
one guild. -/
def addressField? : UpdateKind → Option String
  | guildDelete => some "id"
  | guildMembersChunk | guildRoleCreate | guildRoleUpdate | guildRoleDelete | guildEmojisUpdate
  | guildStickersUpdate | guildMemberRemove | voiceStateUpdate => some "guild_id"
  | _ => none

/-- The field with the payloads of entities in an update that is addressed to a guild. -/
def entityField? : UpdateKind → Option String
  | guildMembersChunk => some "members"
  | guildRoleCreate | guildRoleUpdate => some "role"
  | guildEmojisUpdate => some "emojis"
  | guildStickersUpdate => some "stickers"
  | voiceStateUpdate => some "member"
  | _ => none

/-- The kind of the entity that is created or changed by an update, for the kinds that tell of it by its
record alone. -/
def subjectKind? : UpdateKind → Option Kind
  | guildUpdate => some .guild
  | integrationUpdate => some .integration
  | guildMemberAdd | guildMemberUpdate => some .member
  | guildRoleCreate | guildRoleUpdate => some .role
  | channelCreate | channelUpdate => some .channel
  | threadCreate | threadUpdate => some .thread
  | messageCreate | messageUpdate => some .message
  | autoModRuleCreate | autoModRuleUpdate => some .autoModRule
  | voiceStateUpdate => some .voiceState
  | _ => none

/-- The kind of the entity that an update may remove, for the kinds that guilds list. -/
def removedKind? : UpdateKind → Option Kind
  | guildMemberRemove => some .member
  | guildRoleDelete => some .role
  | channelDelete => some .channel
  | threadDelete => some .thread
  | voiceStateUpdate => some .voiceState
  | _ => none

end UpdateKind

/-- An entity that an update removes. -/
structure Removal where
  kind : Kind
  id : Snowflake
  /-- The guild that the update names. -/
  guild : Option Snowflake
  deriving Repr, DecidableEq

namespace Removal

def key (removal : Removal) : Key :=
  Key.within (if removal.kind.isScoped then removal.guild else none) removal.id

/-- The guild that owns the entity: the one that the update names, else the one that the stored record
names. -/
def owner? (removal : Removal) (store : Store) : Option Snowflake :=
  removal.guild.or
    ((store.recordAt removal.kind removal.key).bind (·.fields.relationId "guild_id"))

end Removal

namespace Dispatch

/-- The fields of an update that was dispatched under the name of a kind. -/
def fieldsAs? (dispatch : Dispatch) (kind : UpdateKind) : Option Fields :=
  if dispatch.name = kind.name then dispatch.data.fields? else none

/-- The guild of a chunk of members that is the last one by its own numbers. -/
def lastChunk? (dispatch : Dispatch) : Option Snowflake := do
  let fields ← dispatch.fieldsAs? .guildMembersChunk
  let index := (fields.unsigned? "chunk_index").getD 0
  let count := (fields.unsigned? "chunk_count").getD 1
  if index.toNat + 1 = count.toNat then fields.relationId "guild_id" else none

/-- The guild that is created and can be reached. -/
def available? (dispatch : Dispatch) : Option Snowflake := do
  let fields ← dispatch.fieldsAs? .guildCreate
  if Update.saysUnavailable fields then none else fields.relationId "id"

/-- The guild that is created, whether it can be reached or not. -/
def created? (dispatch : Dispatch) : Option Snowflake := do
  let fields ← dispatch.fieldsAs? .guildCreate
  fields.relationId "id"

/-- The guild that is deleted, and not only out of reach. -/
def left? (dispatch : Dispatch) : Option Snowflake := do
  let fields ← dispatch.fieldsAs? .guildDelete
  if Update.saysUnavailable fields then none else fields.relationId "id"

/-- The guild that an update is addressed to. -/
def addressee? (dispatch : Dispatch) : Option Snowflake := do
  let kind ← UpdateKind.ofName? dispatch.name
  let fields ← dispatch.data.fields?
  let field ← kind.addressField?
  fields.relationId field

/-- The payloads of entities in an update that is addressed to a guild. -/
def entities (dispatch : Dispatch) : List Json :=
  let value? := do
    let kind ← UpdateKind.ofName? dispatch.name
    let field ← kind.entityField?
    dispatch.data.get? field
  match value? with
  | some (.arr items) => items
  | some value => [value]
  | none => []

/-- The payload of the entity that an update creates or changes. A role stands in a field of its own, and
the guild of a role or a voice state beside it. -/
def subject? (dispatch : Dispatch) : Option Part := do
  let kind ← (UpdateKind.ofName? dispatch.name).bind UpdateKind.subjectKind?
  let fields ← dispatch.data.fields?
  match kind with
  | .role =>
    let role ← (fields.get? "role").bind Json.fields?
    some ⟨.role, ⟨fields.relationId "guild_id", none⟩, role⟩
  | .voiceState => some ⟨.voiceState, ⟨fields.relationId "guild_id", none⟩, fields⟩
  | kind => some ⟨kind, ⟨none, none⟩, fields⟩

/-- The entity that an update removes from what a guild lists. A voice state is removed where its channel
is missing or null. -/
def removal? (dispatch : Dispatch) : Option Removal := do
  let kind ← (UpdateKind.ofName? dispatch.name).bind UpdateKind.removedKind?
  let fields ← dispatch.data.fields?
  let id ← match kind with
    | .member => (Kind.member.identify fields).toOption
    | .role => fields.relationId "role_id"
    | .voiceState =>
      if (fields.get? "channel_id").getD .null = .null then
        (Kind.voiceState.identify fields).toOption
      else none
    | _ => fields.relationId "id"
  some ⟨kind, id, fields.relationId "guild_id"⟩

end Dispatch

/-- The guild that a payload names as its own. -/
def Json.owner? (payload : Json) : Option Snowflake :=
  payload.fields?.bind (·.relationId "guild_id")

end GatewayCache
