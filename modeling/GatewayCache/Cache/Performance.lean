import GatewayCache.Cache
import GatewayCache.Placement
import GatewayCache.Update.Reading

/-! # Updates performed as a whole

What a faultless update does to the cache, with its payloads taken apart
beforehand.
-/

namespace GatewayCache.Cache

/-- A guild that cannot be reached yet: recorded as joined, ready at once if no members are waited
for. -/
def guildPending (cache : Cache) (split : Split) : Cache × Reaction :=
  let (change, store) := cache.store.place cache.config split
  let (gate, gates) := cache.gates.getOrCreate split.root.id
  let gates := if cache.config.fetchMembers then gates else gates.signal gate
  ({ cache with store, gates }, .emit (.guildJoin change.after))

/-- A guild that is available: its event waits for the members if they are to be fetched and not all
of them are stored. -/
def guildAvailable (cache : Cache) (split : Split) : Cache × Reaction :=
  let id := split.root.id
  let wasUnavailable := isUnavailable cache.store id
  let (change, store) := cache.store.place cache.config split
  let event : Event :=
    if wasUnavailable then .guildAvailable change.after else .guildJoin change.after
  let (gate, gates) := cache.gates.getOrCreate id
  let cache := { cache with store, gates }
  if cache.config.fetchMembers = false then
    ({ cache with gates := gates.signal gate }, .emit event)
  else if gates.state gate = .ready then (cache, .emit event)
  else if hasAllMembers store change.after then
    ({ cache with gates := gates.signal gate }, .emit event)
  else ({ cache with requests := cache.requests.concat id }, .defer ⟨gate, event⟩)

/-- A guild that cannot be reached any more: its record is marked, if there is one. -/
def guildOutage (cache : Cache) (guild : Snowflake) : Cache × Reaction :=
  let lastKnown := cache.store.guild? guild
  let store :=
    if lastKnown.isSome then
      cache.store.write .guild (.global guild) [("unavailable", .bool true)]
    else cache.store
  ({ cache with store }, .emit (.guildUnavailable guild lastKnown))

/-- The emoji of a guild replaced by others. -/
def emojisReplaced (cache : Cache) (guild : Snowflake) (emojis : List Split) : Cache × Reaction :=
  let before := emojiOf cache.store guild
  let (changes, store) := cache.store.placeAll cache.config emojis
  let after := changes.map Change.after
  ({ cache with store := dropStaleEmoji guild before after store },
    .emit (.guildEmojisUpdate guild before after))

/-- The stickers that a guild lists replaced by others. -/
def stickersReplaced (cache : Cache) (guild : Snowflake) (stickers : List Split) :
    Cache × Reaction :=
  let before := stickersOf cache.store guild
  let (changes, store) := cache.store.placeAll cache.config stickers
  let after := changes.map Change.after
  ({ cache with store := dropStaleStickers guild before after store },
    .emit (.guildStickersUpdate guild before after))

/-- Members of a guild stored; with the last of them the guild is ready. -/
def membersListed (cache : Cache) (guild : Snowflake) (members : List Split) (last : Bool) :
    Cache × Reaction :=
  let (_, store) := cache.store.placeAll cache.config members
  if last then
    ({ cache with store, gates := (cache.gates.signalGuild guild).2 }, .emit (.guildReady guild))
  else ({ cache with store }, .silent)

/-- The cache after a placement, and the change to the root. -/
def placed (cache : Cache) (split : Split) : Change × Cache :=
  let (change, store) := cache.store.place cache.config split
  (change, { cache with store })

/-- A role of a guild stored and listed. -/
def rolePlaced (cache : Cache) (created : Bool) (guild : Snowflake) (role : Split) :
    Cache × Reaction :=
  let (change, cache) := cache.placed role
  (cache.linked (some guild) .role change.after.id, .emit (changeEvent created change))

/-- An entity stored, and listed by the guild that its record names. -/
def added (cache : Cache) (entity : Split) : Cache × Reaction :=
  let (change, cache) := cache.placed entity
  let owner := change.after.fields.relationId "guild_id"
  (cache.linked owner change.after.kind change.after.id, .emit (changeEvent true change))

/-- An entity deleted, and taken out of the list of its owner. -/
def removed (cache : Cache) (kind : Kind) (key : Key) (owner : Option Snowflake) :
    Cache × Reaction :=
  let cache := cache.unlinked owner kind key.id
  let (lastKnown, store) := cache.store.delete kind key
  ({ cache with store }, .emit (.deleted kind key.id lastKnown))

def perform (cache : Cache) : Update → Cache × Reaction
  | .guildAvailable guild => cache.guildAvailable guild
  | .guildPending guild => cache.guildPending guild
  | .guildChanged guild =>
    let (change, cache) := cache.placed guild
    (cache, .emit (.guildUpdate change.before change.after))
  | .guildOutage guild => cache.guildOutage guild
  | .guildLeft guild => cache.guildLeft guild
  | .banAdded guild user =>
    let (change, cache) := cache.placed user
    (cache, .emit (.banCreate guild change.after))
  | .banLifted guild user =>
    let (change, cache) := cache.placed user
    (cache, .emit (.banRemove guild change.after))
  | .emojisReplaced guild emojis => cache.emojisReplaced guild emojis
  | .stickersReplaced guild stickers => cache.stickersReplaced guild stickers
  | .webhooksChanged guild channel => (cache, .emit (.webhooksUpdate guild channel))
  | .integrationAdded integration =>
    let (change, cache) := cache.placed integration
    (cache, .emit (.integrationCreate change.after))
  | .integrationChanged integration =>
    let (change, cache) := cache.placed integration
    (cache, .emit (.integrationUpdate change.before change.after))
  | .integrationRemoved guild id application =>
    let (lastKnown, store) := cache.store.delete .integration (.global id)
    ({ cache with store }, .emit (.integrationDelete guild id application lastKnown))
  | .membersListed guild members last => cache.membersListed guild members last
  | .roleAdded guild role => cache.rolePlaced true guild role
  | .roleChanged guild role => cache.rolePlaced false guild role
  | .added entity => cache.added entity
  | .changed entity =>
    let (change, cache) := cache.placed entity
    (cache, .emit (changeEvent false change))
  | .removed kind key owner => cache.removed kind key owner
  | .voiceChanged voice =>
    let (change, cache) := cache.placed voice
    (cache, .emit (changeEvent change.before.isNone change))

end GatewayCache.Cache
