import GatewayCache.Record
import GatewayCache.Timestamp

/-! # Fields of typed models

How a field is read from a record: a required field has to be there, one with a
default may be missing, and an optional one may also be `null`. A value that is
there has to be of the right sort.
-/

namespace GatewayCache.Model

abbrev Reads (α : Type) := Json → Option α

/-- An id, in a text without white space or as a number. -/
def snowflake : Reads Snowflake := fun value => (Snowflake.readStrict value).toOption

def snowflakes : Reads (List Snowflake) := fun value => value.items?.bind (·.mapM snowflake)

def text : Reads String := Json.text?

def flag : Reads Bool := Json.bool?

def unsigned : Reads UInt64 := Json.unsigned?

def unsigned32 : Reads UInt32 := fun value =>
  value.unsigned?.bind (fun n => if n.toNat < UInt32.size then some n.toUInt32 else none)

def signed : Reads Int
  | .num number => number.int?.bind (fun n => if n < negativeCount then some n else none)
  | _ => none

def timestamp : Reads Timestamp := fun value => value.text?.bind Timestamp.ofText?

/-- A field that has to be there. -/
def required {α : Type} (fields : Fields) (name : String) (read : Reads α) : Option α :=
  (fields.get? name).bind read

def orElse {α : Type} (fields : Fields) (name : String) (default : α) (read : Reads α) : Option α :=
  (fields.get? name).elim (some default) read

/-- A field that may be missing or `null`. -/
def optional {α : Type} (fields : Fields) (name : String) (read : Reads α) : Option (Option α) :=
  match fields.get? name with
  | none | some .null => some none
  | some value => (read value).map some

def optionJson {α : Type} (encode : α → Json) (value : Option α) : Json := value.elim .null encode

/-- A list of ids as a value. -/
def idsJson (ids : List Snowflake) : Json := .arr (ids.map Snowflake.toJson)

/-- A point in time as a value. -/
def timestampJson (time : Timestamp) : Json := .str time.toText

end GatewayCache.Model
