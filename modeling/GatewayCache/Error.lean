import GatewayCache.Kind
import GatewayCache.UpdateKind

/-! # Errors

Each error is a cause. Its wording is in one place, `message`.
-/

namespace GatewayCache

/-- What is wrong with the payload of an update as a whole. -/
inductive Defect where
  | notAnObject
  /-- A field is absent, `null`, or of the wrong shape. -/
  | missing (field : String)
  /-- A chunk lies behind the last one of its list. -/
  | chunkOutOfRange (index count : UInt64)
  deriving Repr, DecidableEq

def Defect.message : Defect → String
  | .notAnObject => "payload is not an object"
  | .missing field => s!"missing {field}"
  | .chunkOutOfRange index count => s!"chunk_index {index} out of range for chunk_count {count}"

/-- Why an update, a payload or a record was refused. -/
inductive CacheError where
  /-- A payload lacks the id its kind is keyed by. -/
  | missingId (kind : Kind)
  /-- A text does not read as an id. -/
  | invalidId (text : String)
  /-- A record of a kind that lives in a guild came without one. -/
  | missingGuild (kind : Kind)
  | notAnObject (kind : Kind)
  /-- The payload of an update is wrong for its kind. -/
  | malformed (update : UpdateKind) (defect : Defect)
  /-- A text or a value does not have the form that was asked for. -/
  | unreadable
  deriving Repr, DecidableEq

def CacheError.message : CacheError → String
  | .missingId kind => s!"{kind} payload is missing its identifier"
  | .invalidId text => s!"invalid snowflake: {text}"
  | .missingGuild kind => s!"{kind} payload has no guild id to scope it by"
  | .notAnObject kind => s!"{kind} payload is not a JSON object"
  | .malformed update defect => s!"malformed {update} payload: {defect.message}"
  | .unreadable => "JSON error"

/-- Why a record could not be fetched. -/
inductive FetchError where
  /-- The origin knows no entity of this id. -/
  | notFound (kind : Kind) (id : Snowflake)
  | origin (text : String)
  /-- The fetched payload could not be stored. -/
  | unplaceable (kind : Kind) (cause : CacheError)
  deriving Repr, DecidableEq

def FetchError.message : FetchError → String
  | .notFound kind id => s!"{kind} {id} not found"
  | .origin text => s!"origin error: {text}"
  | .unplaceable kind cause => s!"failed to store fetched {kind}: {cause.message}"

namespace Snowflake

/-- The id of a text, or an error that shows the text. -/
def parse (text : String) : Except CacheError Snowflake :=
  (ofText? text).elim (.error (.invalidId text)) .ok

/-- The id that a value holds, or an error that shows the value. -/
def readJson (value : Json) : Except CacheError Snowflake :=
  (ofJson? value).elim (.error (.invalidId value.compact)) .ok

end Snowflake

namespace Kind

/-- The value a payload of a kind is keyed by. A member has no id of its own and is keyed by its
user, a voice state by the user it is about. -/
def identifier? (kind : Kind) (payload : Fields) : Option Json :=
  match kind with
  | .member =>
    (((payload.get? "user").bind (·.get? "id")).or (payload.get? "user_id")).or (payload.get? "id")
  | .voiceState => payload.get? "user_id"
  | _ => payload.get? "id"

/-- The id that a payload of a kind is keyed by. -/
def identify (kind : Kind) (payload : Fields) : Except CacheError Snowflake :=
  match kind.identifier? payload with
  | none | some .null => .error (.missingId kind)
  | some value => Snowflake.readJson value

end Kind

end GatewayCache
