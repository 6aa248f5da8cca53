import GatewayCache.Config
import GatewayCache.Event
import GatewayCache.Store.Eviction

/-! # The cache

The store and the gates under one configuration, and what an update may lead to:
an event at once, an event that waits for a gate, or nothing.
-/

namespace GatewayCache

/-- How many updates came to which end. -/
structure Stats where
  /-- Updates that were performed. -/
  processed : Nat := 0
  /-- Updates with a fault. -/
  failed : Nat := 0
  /-- Performed updates whose event was held back. -/
  deferred : Nat := 0
  /-- Updates of no known kind. -/
  ignored : Nat := 0
  deriving Repr, DecidableEq

/-- The counts of updates as a value. -/
def Stats.toJson (stats : Stats) : Json :=
  Json.object
    [("processed", Json.ofNat stats.processed), ("failed", Json.ofNat stats.failed),
     ("deferred", Json.ofNat stats.deferred), ("ignored", Json.ofNat stats.ignored)]

/-- The state of a cache. -/
structure Cache where
  config : Config
  store : Store
  gates : Gates
  /-- The guilds whose members were asked for, in order. -/
  requests : List Snowflake
  stats : Stats

/-- What an update leads to. -/
inductive Reaction where
  | emit (event : Event)
  /-- An event once a gate opens. -/
  | defer (deferred : Deferred)
  | silent
  deriving Repr, DecidableEq

/-- What applying a dispatched update produced. -/
structure Outcome where
  /-- The events to emit now, in order. -/
  events : List Event
  /-- The event to emit once its gate opens. -/
  deferred : Option Deferred
  deriving Repr, DecidableEq

namespace Cache

/-- A cache over records that are there already. -/
def ofStore (config : Config) (store : Store) : Cache := ⟨config, store, .empty, [], {}⟩

def empty (config : Config) : Cache := ofStore config .empty

instance : Inhabited Cache := ⟨empty default⟩

/-- Whether the record of a guild is marked as unavailable. -/
def isUnavailable (store : Store) (guild : Snowflake) : Bool :=
  (store.guild? guild).any (fun record => record.fields.bool? "unavailable" == some true)

/-- Whether as many members of a guild are stored as its record counts. -/
def hasAllMembers (store : Store) (guild : Record) : Bool :=
  (guild.fields.unsigned? "member_count").any
    (fun expected => expected.toNat ≤ (store.scopedIds .member guild.id).length)

/-- A guild that was left: its records go, and its gate closes. -/
def guildLeft (cache : Cache) (guild : Snowflake) : Cache × Reaction :=
  let (lastKnown, store) := cache.store.evict guild
  ({ cache with store, gates := cache.gates.remove guild }, .emit (.guildLeft guild lastKnown))

/-- The emoji of a guild, by ascending id. -/
def emojiOf (store : Store) (guild : Snowflake) : List Record :=
  (store.scopedIds .emoji guild).filterMap (store.getScoped .emoji guild)

def stickersOf (store : Store) (guild : Snowflake) : List Record :=
  (store.listed guild "sticker_ids").filterMap (store.get .sticker)

/-- The ids of records that are not among others. -/
def staleIds (before after : List Record) : List Snowflake :=
  (before.map Record.id).filter (fun id => !(after.map Record.id).contains id)

/-- The emoji of a guild that were replaced deleted, and the others listed. -/
def dropStaleEmoji (guild : Snowflake) (before after : List Record) (store : Store) : Store :=
  ((staleIds before after).foldl (fun store id => (store.delete .emoji (.scoped guild id)).2)
    store).setList guild "emoji_ids" (after.map Record.id)

/-- The stickers of a guild that were replaced deleted, and the others listed. -/
def dropStaleStickers (guild : Snowflake) (before after : List Record) (store : Store) : Store :=
  (store.deleteIds .sticker (staleIds before after)).setList guild "sticker_ids"
    (after.map Record.id)

/-- The cache with an id listed in the record of its guild, for kinds that are listed. -/
def linked (cache : Cache) (guild : Option Snowflake) (kind : Kind) (id : Snowflake) : Cache :=
  match guild, kind.listField? with
  | some guild, some field => { cache with store := cache.store.link guild field id }
  | _, _ => cache

/-- The cache with an id taken out of the record of its guild, for kinds that are listed. -/
def unlinked (cache : Cache) (guild : Option Snowflake) (kind : Kind) (id : Snowflake) : Cache :=
  match guild, kind.listField? with
  | some guild, some field => { cache with store := cache.store.unlink guild field id }
  | _, _ => cache

/-- The event of a change: a creation or not. -/
def changeEvent (created : Bool) (change : Change) : Event :=
  if created then .created change.after else .updated change.before change.after

/-- The state of the wait for a guild; one without a gate is not waited for. -/
def readiness (cache : Cache) (guild : Snowflake) : GateState :=
  (cache.gates.stateOf? guild).getD .closed

def shutdown (cache : Cache) : Cache := { cache with gates := cache.gates.closeAll }

/-- The counts of a cache whose events go to so many receivers. -/
def statsJson (cache : Cache) (receivers : Nat) : Json :=
  Json.object
    [("store", cache.store.statsJson), ("processor", cache.stats.toJson),
     ("gates", Json.ofNat cache.gates.size), ("subscribers", Json.ofNat receivers)]

end Cache

end GatewayCache
