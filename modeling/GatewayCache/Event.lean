import GatewayCache.Gate
import GatewayCache.Record

/-! # Events

What changed, in terms of records. Where an event has a record from before the
change, it is absent if there was none.
-/

namespace GatewayCache

/-- A change that subscribers are told about. -/
inductive Event where
  /-- A guild was joined, or became available for the first time. -/
  | guildJoin (guild : Record)
  /-- A guild that had become unavailable is available again. -/
  | guildAvailable (guild : Record)
  | guildUpdate (before : Option Record) (after : Record)
  /-- A guild was left; its records are gone. -/
  | guildLeft (id : Snowflake) (lastKnown : Option Record)
  /-- A guild cannot be reached for now; its records are kept. -/
  | guildUnavailable (id : Snowflake) (lastKnown : Option Record)
  /-- The members of a guild are all known. -/
  | guildReady (id : Snowflake)
  | banCreate (guild : Snowflake) (user : Record)
  | banRemove (guild : Snowflake) (user : Record)
  | guildEmojisUpdate (guild : Snowflake) (before after : List Record)
  | guildStickersUpdate (guild : Snowflake) (before after : List Record)
  | webhooksUpdate (guild channel : Snowflake)
  | integrationCreate (integration : Record)
  | integrationUpdate (before : Option Record) (after : Record)
  | integrationDelete (guild id : Snowflake) (application : Option Snowflake)
      (lastKnown : Option Record)
  /-- A record of another kind was created. -/
  | created (record : Record)
  | updated (before : Option Record) (after : Record)
  | deleted (kind : Kind) (id : Snowflake) (lastKnown : Option Record)
  /-- An update as it came. -/
  | raw (name : String) (data : Json)
  deriving Repr, DecidableEq

def Event.name : Event → String
  | guildJoin .. => "guild_join"
  | guildAvailable .. => "guild_available"
  | guildUpdate .. => "guild_update"
  | guildLeft .. => "guild_left"
  | guildUnavailable .. => "guild_unavailable"
  | guildReady .. => "guild_ready"
  | banCreate .. => "ban_create"
  | banRemove .. => "ban_remove"
  | guildEmojisUpdate .. => "guild_emojis_update"
  | guildStickersUpdate .. => "guild_stickers_update"
  | webhooksUpdate .. => "webhooks_update"
  | integrationCreate .. => "integration_create"
  | integrationUpdate .. => "integration_update"
  | integrationDelete .. => "integration_delete"
  | created .. => "created"
  | updated .. => "updated"
  | deleted .. => "deleted"
  | raw .. => "raw"

/-- An event that is held back until a gate opens. -/
structure Deferred where
  gate : Handle
  event : Event
  deriving Repr, DecidableEq

end GatewayCache
