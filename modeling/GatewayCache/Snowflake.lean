import Std.Data.ExtTreeMap.Lemmas
import GatewayCache.Json.Writer
import GatewayCache.Text.Blank

/-! # Snowflakes

Every entity is addressed by a 64-bit id. Payloads carry it as decimal text or as
an unsigned number, and both read to the same id. The order is numeric, which is
also the order of creation.
-/

namespace GatewayCache

/-- A 64-bit entity id. -/
structure Snowflake where
  value : UInt64
  deriving Repr, DecidableEq, Inhabited

namespace Snowflake

instance : Ord Snowflake := ⟨compareOn value⟩

instance : Std.TransOrd Snowflake := inferInstanceAs (Std.TransCmp (compareOn value))

instance : Std.LawfulEqOrd Snowflake where
  eq_of_compare {a b} same := by
    have := Std.LawfulEqOrd.eq_of_compare (α := UInt64) same
    cases a; cases b; simp_all

def chars (id : Snowflake) : List Char := Number.decimal id.value.toNat

def toText (id : Snowflake) : String := String.ofList id.chars

instance : ToString Snowflake := ⟨toText⟩

/-- The number that decimal digits stand for. -/
def ofDigits (digits : List Char) : Nat :=
  digits.foldl (fun n d => n * 10 + (d.toNat - '0'.toNat)) 0

/-- The id that plain digits stand for: at least one, and a number of 64 bits. -/
def ofDigits? (digits : List Char) : Option Snowflake :=
  if digits.isEmpty = false ∧ digits.all Char.isDigit then
    if ofDigits digits < UInt64.size then some ⟨(ofDigits digits).toUInt64⟩ else none
  else none

/-- The id of digits behind an optional plus sign. -/
def ofUntrimmed? : List Char → Option Snowflake
  | '+' :: digits => ofDigits? digits
  | digits => ofDigits? digits

/-- The id of a text with white space allowed at both ends. -/
def ofText? (text : String) : Option Snowflake := ofUntrimmed? (Text.trim text.toList)

/-- The id that a value holds as text or as an unsigned number. -/
def ofJson? : Json → Option Snowflake
  | .str text => ofText? text
  | .num number => number.unsigned?.map mk
  | _ => none

/-- The value that stands for an id in a record. -/
def toJson (id : Snowflake) : Json := .str id.toText

/-- Why a value is no id for a strict reader. -/
inductive Mismatch where
  /-- A text that is not digits of a 64-bit number. -/
  | unreadable (text : String)
  | negative (value : Int)
  /-- A value of another sort. -/
  | sort (value : Json)
  deriving Repr, DecidableEq

/-- The id that a value holds, with no white space allowed in a text. -/
def readStrict : Json → Except Mismatch Snowflake
  | .str text => (ofUntrimmed? text.toList).elim (.error (.unreadable text)) .ok
  | .num (.unsigned value) => .ok ⟨value⟩
  | .num (.negative below) => .error (.negative (-1 - (below.val : Int)))
  | value => .error (.sort value)

/-- What a value of another sort is called. -/
def Mismatch.sortName : Json → String
  | .null => "null"
  | .bool value => s!"boolean `{value}`"
  | .num number => s!"floating point `{String.ofList number.text}`"
  | .str _ => "string"
  | .arr _ => "sequence"
  | .obj _ => "map"

def Mismatch.message : Mismatch → String
  | .unreadable text => s!"invalid snowflake: {text}"
  | .negative value => s!"negative snowflake: {value}"
  | .sort value =>
    s!"invalid type: {sortName value}, expected a snowflake as a decimal string or unsigned integer"

/-- The milliseconds from the Unix epoch to the start of 2015, which ids count from. -/
def platformEpoch : Nat := 1420070400000

/-- When the id was minted, in milliseconds since the Unix epoch. -/
def createdMillis (id : Snowflake) : Nat := (id.value >>> 22).toNat + platformEpoch

end Snowflake

end GatewayCache
