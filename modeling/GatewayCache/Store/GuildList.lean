import GatewayCache.Relation
import GatewayCache.Store

/-! # Lists of ids in guild records

The record of a guild lists the ids of what belongs to it. The lists are edited
only while the guild has a record; no other field of it changes.
-/

namespace GatewayCache.Store

def guild? (store : Store) (guild : Snowflake) : Option Record :=
  store.recordAt .guild (.global guild)

/-- The ids that a guild's record lists in a field. -/
def listed (store : Store) (guild : Snowflake) (field : String) : List Snowflake :=
  (store.guild? guild).elim [] (fun record => record.fields.relationIds field)

/-- Replaces a list in a guild's record. -/
def setList (store : Store) (guild : Snowflake) (field : String) (ids : List Snowflake) : Store :=
  if (store.guild? guild).isSome then
    store.write .guild (.global guild) [(field, .arr (ids.map Snowflake.toJson))]
  else store

/-- Appends an id to a list in a guild's record, unless it is there. -/
def link (store : Store) (guild : Snowflake) (field : String) (id : Snowflake) : Store :=
  let ids := store.listed guild field
  if ids.contains id then store else store.setList guild field (ids.concat id)

/-- Takes an id out of a list in a guild's record. -/
def unlink (store : Store) (guild : Snowflake) (field : String) (id : Snowflake) : Store :=
  let ids := store.listed guild field
  if ids.contains id then store.setList guild field (ids.filter (· != id)) else store

end GatewayCache.Store
