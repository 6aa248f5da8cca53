import GatewayCache.Cache
import GatewayCache.Intake
import GatewayCache.Update

/-! # Handling updates

Each kind of update has a handler that reads the value of the update, writes its
records and says what changed. Reading and writing alternate, and a handler that
is refused does not take back what it wrote.
-/

namespace GatewayCache

open Update

namespace Cache

/-- An action on the store as one on the cache. -/
def onStore {α : Type} (action : Action Store α) : Action Cache α :=
  .ofFunction (fun cache =>
    let (result, store) := action.on cache.store
    (result, { cache with store }))

/-- A step on the cache that cannot be refused. -/
def react {α : Type} (work : Cache → Cache × α) : Action Cache α :=
  .ofFunction (fun cache => (.ok (work cache).2, (work cache).1))

/-- Takes a payload in, in a guild if one is known around it. -/
def takeIn (kind : Kind) (guild : Option Snowflake) (payload : Json) : Action Cache Change := do
  onStore (Intake.place (← get).config kind guild payload)

/-- Takes payloads in, in turn up to the first that is refused. -/
def takeEach (kind : Kind) (guild : Snowflake) : List Json → Action Cache (List Change)
  | [] => return []
  | payload :: rest => do
    let change ← takeIn kind (some guild) payload
    return change :: (← takeEach kind guild rest)

/-- The gate of a guild, made if there is none. -/
def gateOf (guild : Snowflake) : Action Cache Handle :=
  react (fun cache =>
    let (gate, gates) := cache.gates.getOrCreate guild
    ({ cache with gates }, gate))

def opened (gate : Handle) : Action Cache Unit :=
  modify (fun cache => { cache with gates := cache.gates.signal gate })

/-- The creation of a guild that cannot be reached yet. It counts as joined, and is ready at once if no
members are waited for. -/
def createPending (guild : Snowflake) (fields : Fields) : Action Cache Reaction := do
  let change ← takeIn .guild none (.obj fields)
  let gate ← gateOf guild
  if (← get).config.fetchMembers = false then
    opened gate
  return .emit (.guildJoin change.after)

/-- The creation of a guild that is available, which its record then says. Its event waits for the
members if they are to be fetched and not all of them are stored. -/
def createAvailable (guild : Snowflake) (fields : Fields) : Action Cache Reaction := do
  let wasUnavailable := isUnavailable (← get).store guild
  let change ← takeIn .guild none (.obj (fields.insert "unavailable" (.bool false)))
  let event : Event :=
    if wasUnavailable then .guildAvailable change.after else .guildJoin change.after
  let gate ← gateOf guild
  if (← get).config.fetchMembers = false then
    opened gate
    return .emit event
  else if (← get).gates.state gate = .ready then
    return .emit event
  else if hasAllMembers (← get).store change.after then
    opened gate
    return .emit event
  else
    modify (fun cache => { cache with requests := cache.requests.concat guild })
    return .defer ⟨gate, event⟩

def guildCreate (data : Json) : Action Cache Reaction := do
  let fields ← fieldsOf .guildCreate data
  let guild ← requireId .guildCreate fields "id"
  if saysUnavailable fields then createPending guild fields else createAvailable guild fields

/-- A guild that cannot be reached any more: its record is marked, if there is one. -/
def markOutage (guild : Snowflake) : Action Cache Reaction := do
  let lastKnown := (← get).store.guild? guild
  if lastKnown.isSome then
    let _ ← onStore (Intake.put .guild (.global guild) [("unavailable", .bool true)])
  return .emit (.guildUnavailable guild lastKnown)

/-- The deletion of a guild, which may only be an outage. -/
def guildDelete (data : Json) : Action Cache Reaction := do
  let fields ← fieldsOf .guildDelete data
  let guild ← requireId .guildDelete fields "id"
  if saysUnavailable fields then markOutage guild else react (·.guildLeft guild)

/-- A ban that was added or lifted. -/
def ban (kind : UpdateKind) (event : Snowflake → Record → Event) (data : Json) :
    Action Cache Reaction := do
  let fields ← fieldsOf kind data
  let guild ← requireId kind fields "guild_id"
  let user ← require kind fields "user"
  let change ← takeIn .user none user
  return .emit (event guild change.after)

/-- The emoji of a guild replaced by others. -/
def emojisUpdate (data : Json) : Action Cache Reaction := do
  let fields ← fieldsOf .guildEmojisUpdate data
  let guild ← requireId .guildEmojisUpdate fields "guild_id"
  let emojis ← requireList .guildEmojisUpdate fields "emojis" .emoji
  let before := emojiOf (← get).store guild
  let after := (← takeEach .emoji guild emojis).map Change.after
  modify (fun cache => { cache with store := dropStaleEmoji guild before after cache.store })
  return .emit (.guildEmojisUpdate guild before after)

/-- The stickers that a guild lists replaced by others. -/
def stickersUpdate (data : Json) : Action Cache Reaction := do
  let fields ← fieldsOf .guildStickersUpdate data
  let guild ← requireId .guildStickersUpdate fields "guild_id"
  let stickers ← requireList .guildStickersUpdate fields "stickers" .sticker
  let before := stickersOf (← get).store guild
  let after := (← takeEach .sticker guild stickers).map Change.after
  modify (fun cache => { cache with store := dropStaleStickers guild before after cache.store })
  return .emit (.guildStickersUpdate guild before after)

/-- A chunk of a guild's members; without numbers it is the only one. With the last chunk the guild is
ready. -/
def membersChunk (data : Json) : Action Cache Reaction := do
  let fields ← fieldsOf .guildMembersChunk data
  let guild ← requireId .guildMembersChunk fields "guild_id"
  let members ← requireList .guildMembersChunk fields "members" .member
  let index := (fields.unsigned? "chunk_index").getD 0
  let count := (fields.unsigned? "chunk_count").getD 1
  if count ≤ index then
    throw (.malformed .guildMembersChunk (.chunkOutOfRange index count))
  let _ ← takeEach .member guild members
  if index + 1 < count then
    return .silent
  else
    modify (fun cache => { cache with gates := (cache.gates.signalGuild guild).2 })
    return .emit (.guildReady guild)

/-- An entity taken in, and listed by the guild that its record names if it was created. -/
def upsert (kind : Kind) (created : Bool) (data : Json) : Action Cache Reaction := do
  let change ← takeIn kind none data
  if created then
    modify (fun cache =>
      cache.linked (change.after.fields.relationId "guild_id") kind change.after.id)
  return .emit (changeEvent created change)

/-- An entity taken out of the list of its owner, if it has one, and deleted. -/
def remove (kind : Kind) (key : Key) (owner : Option Snowflake) : Action Cache Reaction :=
  react (fun cache =>
    let cache := cache.unlinked owner kind key.id
    let (lastKnown, store) := cache.store.delete kind key
    ({ cache with store }, .emit (.deleted kind key.id lastKnown)))

/-- A role of a guild taken in and listed. -/
def roleUpsert (kind : UpdateKind) (created : Bool) (data : Json) : Action Cache Reaction := do
  let fields ← fieldsOf kind data
  let guild ← requireId kind fields "guild_id"
  let role ← require kind fields "role"
  let change ← takeIn .role (some guild) role
  modify (fun cache => cache.linked (some guild) .role change.after.id)
  return .emit (changeEvent created change)

/-- The removal of a role from its guild. -/
def roleDelete (data : Json) : Action Cache Reaction := do
  let fields ← fieldsOf .guildRoleDelete data
  let guild ← requireId .guildRoleDelete fields "guild_id"
  let id ← requireId .guildRoleDelete fields "role_id"
  remove .role (.scoped guild id) (some guild)

/-- The removal of a member from its guild. -/
def memberRemove (data : Json) : Action Cache Reaction := do
  let fields ← fieldsOf .guildMemberRemove data
  let guild ← requireId .guildMemberRemove fields "guild_id"
  let id ← Kind.member.identify fields
  remove .member (.scoped guild id) (some guild)

/-- The removal of a channel or a thread, from the list of the guild that the update names. -/
def channelDelete (update : UpdateKind) (kind : Kind) (data : Json) : Action Cache Reaction := do
  let fields ← fieldsOf update data
  let id ← requireId update fields "id"
  remove kind (.global id) (fields.relationId "guild_id")

/-- The removal of an entity that no guild lists. -/
def plainDelete (update : UpdateKind) (kind : Kind) (data : Json) : Action Cache Reaction := do
  let fields ← fieldsOf update data
  let id ← requireId update fields "id"
  remove kind (.global id) none

/-- A change of an integration, by the event that tells of it. -/
def integrationUpsert (event : Change → Event) (data : Json) : Action Cache Reaction := do
  return .emit (event (← takeIn .integration none data))

def integrationDelete (data : Json) : Action Cache Reaction := do
  let fields ← fieldsOf .integrationDelete data
  let id ← requireId .integrationDelete fields "id"
  let guild ← requireId .integrationDelete fields "guild_id"
  react (fun cache =>
    let (lastKnown, store) := cache.store.delete .integration (.global id)
    ({ cache with store },
      .emit (.integrationDelete guild id (fields.relationId "application_id") lastKnown)))

/-- A change of a voice state; without a channel the user has left. -/
def voiceState (data : Json) : Action Cache Reaction := do
  let fields ← fieldsOf .voiceStateUpdate data
  let guild ← requireId .voiceStateUpdate fields "guild_id"
  let id ← Kind.voiceState.identify fields
  match fields.get? "channel_id" with
  | none | some .null => remove .voiceState (.scoped guild id) none
  | some _ =>
    let change ← takeIn .voiceState (some guild) data
    return .emit (changeEvent change.before.isNone change)

/-- A change of the webhooks of a channel. -/
def webhooksUpdate (data : Json) : Action Cache Reaction := do
  let fields ← fieldsOf .webhooksUpdate data
  let guild ← requireId .webhooksUpdate fields "guild_id"
  let channel ← requireId .webhooksUpdate fields "channel_id"
  return .emit (.webhooksUpdate guild channel)

/-- Handles an update of a known kind. -/
def handle (kind : UpdateKind) (data : Json) : Action Cache Reaction :=
  match kind with
  | .guildCreate => guildCreate data
  | .guildUpdate => do
    let change ← takeIn .guild none data
    return .emit (.guildUpdate change.before change.after)
  | .guildDelete => guildDelete data
  | .guildBanAdd => ban kind .banCreate data
  | .guildBanRemove => ban kind .banRemove data
  | .guildEmojisUpdate => emojisUpdate data
  | .guildStickersUpdate => stickersUpdate data
  | .webhooksUpdate => webhooksUpdate data
  | .integrationCreate => integrationUpsert (fun change => .integrationCreate change.after) data
  | .integrationUpdate =>
    integrationUpsert (fun change => .integrationUpdate change.before change.after) data
  | .integrationDelete => integrationDelete data
  | .guildMembersChunk => membersChunk data
  | .guildMemberAdd => upsert .member true data
  | .guildMemberUpdate => upsert .member false data
  | .guildMemberRemove => memberRemove data
  | .guildRoleCreate => roleUpsert kind true data
  | .guildRoleUpdate => roleUpsert kind false data
  | .guildRoleDelete => roleDelete data
  | .channelCreate => upsert .channel true data
  | .channelUpdate => upsert .channel false data
  | .channelDelete => channelDelete kind .channel data
  | .threadCreate => upsert .thread true data
  | .threadUpdate => upsert .thread false data
  | .threadDelete => channelDelete kind .thread data
  | .messageCreate => upsert .message true data
  | .messageUpdate => upsert .message false data
  | .messageDelete => plainDelete kind .message data
  | .autoModRuleCreate => upsert .autoModRule true data
  | .autoModRuleUpdate => upsert .autoModRule false data
  | .autoModRuleDelete => plainDelete kind .autoModRule data
  | .voiceStateUpdate => voiceState data

/-- The dispatched update as an event, where such events are asked for. -/
def rawEvents (cache : Cache) (dispatch : Dispatch) : List Event :=
  if cache.config.dispatchRaw then [.raw dispatch.name dispatch.data] else []

/-- The outcome that a reaction makes after earlier events. -/
def Outcome.of (events : List Event) : Reaction → Outcome
  | .emit event => ⟨events ++ [event], none⟩
  | .defer deferred => ⟨events, some deferred⟩
  | .silent => ⟨events, none⟩

/-- The counts after an update was performed. -/
def Stats.counting (stats : Stats) : Reaction → Stats
  | .defer _ => { stats with processed := stats.processed + 1, deferred := stats.deferred + 1 }
  | _ => { stats with processed := stats.processed + 1 }

/-- Applies a dispatched update. One of no known kind changes nothing but its count, and a refused one
gives its error and no event. -/
def apply (cache : Cache) (dispatch : Dispatch) : Except CacheError Outcome × Cache :=
  match UpdateKind.ofName? dispatch.name with
  | none =>
    (.ok ⟨cache.rawEvents dispatch, none⟩,
      { cache with stats := { cache.stats with ignored := cache.stats.ignored + 1 } })
  | some kind =>
    match (handle kind dispatch.data).on cache with
    | (.error error, after) =>
      (.error error, { after with stats := { after.stats with failed := after.stats.failed + 1 } })
    | (.ok reaction, after) =>
      (.ok (Outcome.of (cache.rawEvents dispatch) reaction),
        { after with stats := Stats.counting after.stats reaction })

/-- The cache after updates, one by one. -/
def applyAll (cache : Cache) (dispatches : List Dispatch) : Cache :=
  dispatches.foldl (fun cache dispatch => (cache.apply dispatch).2) cache

end Cache

end GatewayCache
