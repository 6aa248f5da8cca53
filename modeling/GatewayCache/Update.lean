import GatewayCache.Record

/-! # Updates

An update as it is dispatched is a name and a value. What the value has to hold
depends on the kind of update, and a value that does not is refused with an error
that names what is wrong.
-/

namespace GatewayCache

/-- An update as it is dispatched. -/
structure Dispatch where
  name : String
  data : Json
  deriving Repr, DecidableEq

namespace Update

def fieldsOf (kind : UpdateKind) : Json → Except CacheError Fields
  | .obj fields => .ok fields
  | _ => .error (.malformed kind .notAnObject)

/-- The id in a field that has to be there. -/
def requireId (kind : UpdateKind) (fields : Fields) (field : String) : Except CacheError Snowflake :=
  match fields.get? field with
  | none | some .null => .error (.malformed kind (.missing field))
  | some value => Snowflake.readJson value

/-- The value in a field that has to be there. -/
def require (kind : UpdateKind) (fields : Fields) (field : String) : Except CacheError Json :=
  (fields.get? field).elim (.error (.malformed kind (.missing field))) .ok

/-- Checks that every item of a list is an object with an id of its kind. -/
def checkEach (kind : Kind) : List Json → Except CacheError Unit
  | [] => .ok ()
  | .obj payload :: rest => do
    let _ ← kind.identify payload
    checkEach kind rest
  | _ :: _ => .error (.notAnObject kind)

/-- The list of payloads in a field that has to be there, each checked before any of them is used. -/
def requireList (update : UpdateKind) (fields : Fields) (field : String) (kind : Kind) :
    Except CacheError (List Json) :=
  match (fields.get? field).bind Json.items? with
  | none => .error (.malformed update (.missing field))
  | some items => do
    checkEach kind items
    .ok items

/-- Whether the fields say that a guild cannot be reached. -/
def saysUnavailable (fields : Fields) : Bool := fields.bool? "unavailable" == some true

end Update

end GatewayCache
