import GatewayCache.Store

/-! # References

Records hold the ids of related entities. A reference names such an entity by kind
and key, and is looked up in the store when it is followed.
-/

namespace GatewayCache

/-- A related entity. -/
structure Reference where
  kind : Kind
  key : Key
  deriving Repr, DecidableEq

/-- A list of related entities of one kind. -/
structure References where
  kind : Kind
  keys : List Key
  deriving Repr, DecidableEq

namespace Reference

/-- The record referred to, if it is stored. -/
def find? (reference : Reference) (store : Store) : Option Record :=
  store.getKey reference.kind reference.key

end Reference

namespace References

/-- Entities by their ids, inside a guild where one is given. -/
def within (kind : Kind) (guild : Option Snowflake) (ids : List Snowflake) : References :=
  ⟨kind, ids.map (Key.within guild)⟩

def global (kind : Kind) (ids : List Snowflake) : References := within kind none ids

/-- Entities of a guild by their ids. -/
def inGuild (kind : Kind) (guild : Snowflake) (ids : List Snowflake) : References :=
  within kind (some guild) ids

def guilds (store : Store) : References := global .guild store.guildIds

def ids (references : References) : List Snowflake := references.keys.map Key.id

def each (references : References) : List Reference := references.keys.map (⟨references.kind, ·⟩)

/-- The records referred to, without those that are not stored. -/
def findAll (references : References) (store : Store) : List Record :=
  references.each.filterMap (·.find? store)

end References

end GatewayCache
