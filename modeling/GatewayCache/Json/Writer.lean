import GatewayCache.Json.Basic

/-! # Writing JSON

The compact form: no blanks, fields in their order, and in texts only the quote,
the backslash and the control characters below `U+0020` escaped.
-/

namespace GatewayCache.Json

def hexDigit (n : Nat) : Char := Nat.digitChar (n % 16)

/-- A character as it stands in a quoted text. -/
def escape (c : Char) : List Char :=
  if c = '"' then ['\\', '"']
  else if c = '\\' then ['\\', '\\']
  else if c = '\x08' then ['\\', 'b']
  else if c = '\x0c' then ['\\', 'f']
  else if c = '\n' then ['\\', 'n']
  else if c = '\r' then ['\\', 'r']
  else if c = '\t' then ['\\', 't']
  else if c.toNat < 32 then ['\\', 'u', '0', '0', hexDigit (c.toNat / 16), hexDigit c.toNat]
  else [c]

def quoted (text : String) : List Char := '"' :: text.toList.flatMap escape ++ ['"']

mutual

/-- The characters of a value in compact form. -/
def chars : Json → List Char
  | .null => ['n', 'u', 'l', 'l']
  | .bool true => ['t', 'r', 'u', 'e']
  | .bool false => ['f', 'a', 'l', 's', 'e']
  | .num value => value.text
  | .str text => quoted text
  | .arr [] => ['[', ']']
  | .arr (item :: rest) => '[' :: (chars item ++ moreItems rest)
  | .obj [] => ['\x7b', '\x7d']
  | .obj ((key, value) :: rest) => '\x7b' :: (quoted key ++ ':' :: (chars value ++ moreFields rest))
termination_by structural value => value

/-- The items after the first, each behind a comma, and the closing bracket. -/
def moreItems : List Json → List Char
  | [] => [']']
  | item :: rest => ',' :: (chars item ++ moreItems rest)
termination_by structural items => items

/-- The fields after the first, each behind a comma, and the closing brace. -/
def moreFields : List (String × Json) → List Char
  | [] => ['\x7d']
  | (key, value) :: rest => ',' :: (quoted key ++ ':' :: (chars value ++ moreFields rest))
termination_by structural fields => fields

end

def compact (value : Json) : String := String.ofList value.chars

end GatewayCache.Json
