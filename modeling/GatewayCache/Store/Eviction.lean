import GatewayCache.Store.GuildList

/-! # Eviction of a guild

When a guild is left, its record goes with everything inside it, with the
channels, threads and stickers that its record lists, and with the stickers,
integrations and moderation rules that name it as their guild.
-/

namespace GatewayCache.Store

/-- The global kinds whose ids a guild's record lists, and that go with it. -/
def listedKinds : List (Kind × String) :=
  [(.channel, "channel_ids"), (.thread, "thread_ids"), (.sticker, "sticker_ids")]

/-- The global kinds that go with the guild that they name. -/
def namingKinds : List Kind := [.sticker, .integration, .autoModRule]

/-- Removes the global records of a kind with given ids. -/
def deleteIds (store : Store) (kind : Kind) (ids : List Snowflake) : Store :=
  ids.foldl (fun store id => (store.delete kind (.global id)).2) store

/-- Removes the records that a guild's record lists. -/
def evictListed (store : Store) (guild : Snowflake) : Store :=
  listedKinds.foldl
    (fun rest entry => rest.deleteIds entry.1 (store.listed guild entry.2)) store

/-- Removes the records that name a guild. -/
def evictNaming (store : Store) (guild : Snowflake) : Store :=
  namingKinds.foldl (fun rest kind => (rest.deleteByGuild kind guild).2) store

/-- Removes a guild and all that goes with it, and gives the guild's record. -/
def evict (store : Store) (guild : Snowflake) : Option Record × Store :=
  ((store.evictListed guild).evictNaming guild).deleteGuild guild

end GatewayCache.Store
