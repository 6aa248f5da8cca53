import GatewayCache.Split
import GatewayCache.Update

/-! # Updates read as a whole

Reading an update to its end finds every fault that its value may have and takes
the payloads in it apart, before anything is written. Performing what was read
cannot fail.
-/

namespace GatewayCache

/-- An update without faults. -/
inductive Update where
  /-- A guild was joined, or is available again. -/
  | guildAvailable (guild : Split)
  /-- A guild was joined but cannot be reached for now. -/
  | guildPending (guild : Split)
  | guildChanged (guild : Split)
  | guildOutage (guild : Snowflake)
  | guildLeft (guild : Snowflake)
  | banAdded (guild : Snowflake) (user : Split)
  | banLifted (guild : Snowflake) (user : Split)
  | emojisReplaced (guild : Snowflake) (emojis : List Split)
  | stickersReplaced (guild : Snowflake) (stickers : List Split)
  | webhooksChanged (guild channel : Snowflake)
  | integrationAdded (integration : Split)
  | integrationChanged (integration : Split)
  | integrationRemoved (guild id : Snowflake) (application : Option Snowflake)
  /-- Some members of a guild were listed, perhaps the last of them. -/
  | membersListed (guild : Snowflake) (members : List Split) (last : Bool)
  | roleAdded (guild : Snowflake) (role : Split)
  | roleChanged (guild : Snowflake) (role : Split)
  /-- An entity of another kind was added. -/
  | added (entity : Split)
  | changed (entity : Split)
  /-- An entity was removed, from the lists of its owner where one is named. -/
  | removed (kind : Kind) (key : Key) (owner : Option Snowflake)
  /-- A user joined a voice channel or changed in it. -/
  | voiceChanged (voice : Split)
  deriving Repr, DecidableEq

namespace Update

/-- Payloads taken apart one by one, up to the first that cannot be. -/
def splitAll (kind : Kind) (guild : Snowflake) : List Json → Except CacheError (List Split)
  | [] => .ok []
  | item :: rest => do
    let first ← Split.ofJson kind (some guild) item
    let more ← splitAll kind guild rest
    .ok (first :: more)

/-- A list of payloads of one kind in a field that has to be there. -/
def splitList (update : UpdateKind) (fields : Fields) (field : String) (kind : Kind)
    (guild : Snowflake) : Except CacheError (List Split) :=
  match (fields.get? field).bind Json.items? with
  | none => .error (.malformed update (.missing field))
  | some items => splitAll kind guild items

/-- Reads the creation of a guild; one that is not said to be unavailable is recorded as available. -/
def readGuildCreate (fields : Fields) : Except CacheError Update := do
  let _ ← requireId .guildCreate fields "id"
  if saysUnavailable fields then
    .ok (.guildPending (← Split.ofFields .guild none fields))
  else
    .ok (.guildAvailable
      (← Split.ofFields .guild none (fields.insert "unavailable" (.bool false))))

def readGuildDelete (fields : Fields) : Except CacheError Update := do
  let guild ← requireId .guildDelete fields "id"
  .ok (if saysUnavailable fields then .guildOutage guild else .guildLeft guild)

/-- Reads a ban, by what becomes of it. -/
def readBan (kind : UpdateKind) (fields : Fields) (become : Snowflake → Split → Update) :
    Except CacheError Update := do
  let guild ← requireId kind fields "guild_id"
  let user ← require kind fields "user"
  .ok (become guild (← Split.ofJson .user none user))

/-- Reads a chunk of a guild's members; without numbers it is the only one. -/
def readMembersChunk (fields : Fields) : Except CacheError Update := do
  let guild ← requireId .guildMembersChunk fields "guild_id"
  let members ← splitList .guildMembersChunk fields "members" .member guild
  let index := (fields.unsigned? "chunk_index").getD 0
  let count := (fields.unsigned? "chunk_count").getD 1
  if count ≤ index then .error (.malformed .guildMembersChunk (.chunkOutOfRange index count))
  else .ok (.membersListed guild members (index.toNat + 1 = count.toNat))

/-- Reads a role of a guild, by what becomes of it. -/
def readRole (kind : UpdateKind) (fields : Fields) (become : Snowflake → Split → Update) :
    Except CacheError Update := do
  let guild ← requireId kind fields "guild_id"
  let role ← require kind fields "role"
  .ok (become guild (← Split.ofJson .role (some guild) role))

/-- Reads the removal of a channel or a thread. -/
def readChannelDelete (update : UpdateKind) (kind : Kind) (fields : Fields) :
    Except CacheError Update := do
  let id ← requireId update fields "id"
  .ok (.removed kind (.global id) (fields.relationId "guild_id"))

/-- Reads the removal of an entity that no guild lists. -/
def readDelete (update : UpdateKind) (kind : Kind) (fields : Fields) : Except CacheError Update := do
  let id ← requireId update fields "id"
  .ok (.removed kind (.global id) none)

/-- Reads a change of a voice state; without a channel the user has left. -/
def readVoiceState (fields : Fields) : Except CacheError Update := do
  let guild ← requireId .voiceStateUpdate fields "guild_id"
  let id ← Kind.voiceState.identify fields
  match fields.get? "channel_id" with
  | none | some .null => .ok (.removed .voiceState (.scoped guild id) none)
  | some _ => .ok (.voiceChanged (← Split.ofFields .voiceState (some guild) fields))

/-- Reads the value of an update of a known kind. -/
def read (kind : UpdateKind) (data : Json) : Except CacheError Update :=
  match kind with
  | .guildCreate => do readGuildCreate (← fieldsOf kind data)
  | .guildUpdate => do .ok (.guildChanged (← Split.ofJson .guild none data))
  | .guildDelete => do readGuildDelete (← fieldsOf kind data)
  | .guildBanAdd => do readBan kind (← fieldsOf kind data) .banAdded
  | .guildBanRemove => do readBan kind (← fieldsOf kind data) .banLifted
  | .guildEmojisUpdate => do
    let fields ← fieldsOf kind data
    let guild ← requireId kind fields "guild_id"
    .ok (.emojisReplaced guild (← splitList kind fields "emojis" .emoji guild))
  | .guildStickersUpdate => do
    let fields ← fieldsOf kind data
    let guild ← requireId kind fields "guild_id"
    .ok (.stickersReplaced guild (← splitList kind fields "stickers" .sticker guild))
  | .webhooksUpdate => do
    let fields ← fieldsOf kind data
    let guild ← requireId kind fields "guild_id"
    .ok (.webhooksChanged guild (← requireId kind fields "channel_id"))
  | .integrationCreate => do .ok (.integrationAdded (← Split.ofJson .integration none data))
  | .integrationUpdate => do .ok (.integrationChanged (← Split.ofJson .integration none data))
  | .integrationDelete => do
    let fields ← fieldsOf kind data
    let id ← requireId kind fields "id"
    let guild ← requireId kind fields "guild_id"
    .ok (.integrationRemoved guild id (fields.relationId "application_id"))
  | .guildMembersChunk => do readMembersChunk (← fieldsOf kind data)
  | .guildMemberAdd => do .ok (.added (← Split.ofJson .member none data))
  | .guildMemberUpdate => do .ok (.changed (← Split.ofJson .member none data))
  | .guildMemberRemove => do
    let fields ← fieldsOf kind data
    let guild ← requireId kind fields "guild_id"
    let id ← Kind.member.identify fields
    .ok (.removed .member (.scoped guild id) (some guild))
  | .guildRoleCreate => do readRole kind (← fieldsOf kind data) .roleAdded
  | .guildRoleUpdate => do readRole kind (← fieldsOf kind data) .roleChanged
  | .guildRoleDelete => do
    let fields ← fieldsOf kind data
    let guild ← requireId kind fields "guild_id"
    let id ← requireId kind fields "role_id"
    .ok (.removed .role (.scoped guild id) (some guild))
  | .channelCreate => do .ok (.added (← Split.ofJson .channel none data))
  | .channelUpdate => do .ok (.changed (← Split.ofJson .channel none data))
  | .channelDelete => do readChannelDelete kind .channel (← fieldsOf kind data)
  | .threadCreate => do .ok (.added (← Split.ofJson .thread none data))
  | .threadUpdate => do .ok (.changed (← Split.ofJson .thread none data))
  | .threadDelete => do readChannelDelete kind .thread (← fieldsOf kind data)
  | .messageCreate => do .ok (.added (← Split.ofJson .message none data))
  | .messageUpdate => do .ok (.changed (← Split.ofJson .message none data))
  | .messageDelete => do readDelete kind .message (← fieldsOf kind data)
  | .autoModRuleCreate => do .ok (.added (← Split.ofJson .autoModRule none data))
  | .autoModRuleUpdate => do .ok (.changed (← Split.ofJson .autoModRule none data))
  | .autoModRuleDelete => do readDelete kind .autoModRule (← fieldsOf kind data)
  | .voiceStateUpdate => do readVoiceState (← fieldsOf kind data)

end Update

/-- Whether an update is refused. No cache has a say in that, and an update of no known kind never
is. -/
def Dispatch.isRefused (dispatch : Dispatch) : Bool :=
  (UpdateKind.ofName? dispatch.name).any (fun kind => !(Update.read kind dispatch.data).isOk)

end GatewayCache
