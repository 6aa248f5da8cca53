import GatewayCache.Error
import GatewayCache.Json.Merge

/-! # Records

A record is one entity as flat fields, with its kind and key. Relations to other
entities are fields that hold ids.
-/

namespace GatewayCache

namespace Fields

def relationId (fields : Fields) (field : String) : Option Snowflake :=
  (fields.get? field).bind Snowflake.ofJson?

/-- The ids in a list field; entries that do not read as ids are left out. -/
def relationIds (fields : Fields) (field : String) : List Snowflake :=
  (((fields.get? field).bind Json.items?).getD []).filterMap Snowflake.ofJson?

def text? (fields : Fields) (field : String) : Option String := (fields.get? field).bind Json.text?

def bool? (fields : Fields) (field : String) : Option Bool := (fields.get? field).bind Json.bool?

def unsigned? (fields : Fields) (field : String) : Option UInt64 :=
  (fields.get? field).bind Json.unsigned?

end Fields

/-- One entity. -/
structure Record where
  kind : Kind
  key : Key
  fields : Fields
  deriving Repr, DecidableEq

namespace Record

def id (record : Record) : Snowflake := record.key.id

/-- The guild of the entity: that of its key, else the one its fields name. -/
def guild? (record : Record) : Option Snowflake :=
  record.key.guild?.or (record.fields.relationId "guild_id")

/-- The record with an update laid over its fields. -/
def merge (record : Record) (update : Fields) : Record :=
  { record with fields := record.fields.merge update }

def toJson (record : Record) : Json := .obj record.fields

end Record

end GatewayCache
