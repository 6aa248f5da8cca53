import GatewayCache.Json.Reader

/-! # The form of JSON texts

What has the form of a value, whether or not it stands for one: numbers may be of
any size, texts may hold halves of surrogate pairs, and nesting may be of any
depth. Reading a form gives nothing but the characters behind it.
-/

namespace GatewayCache.Json.Form

open Reader

/-- The characters behind a text whose opening quote is behind us. -/
def afterText? : List Char → Option (List Char)
  | [] => none
  | '"' :: rest => some rest
  | '\\' :: 'u' :: a :: b :: c :: d :: rest =>
    if [a, b, c, d].all (fun digit => (hexValue? digit).isSome) then afterText? rest else none
  | '\\' :: c :: rest => if "\"\\/bfnrt".toList.contains c then afterText? rest else none
  | c :: rest => if c = '\\' ∨ c.toNat < 32 then none else afterText? rest

def text? : Reads Unit := fun cs => (afterText? cs).map ((), ·)

def exponent? : Reads Unit
  | c :: rest =>
    if c = 'e' ∨ c = 'E' then (Reader.exponent? rest).map (fun read => ((), read.2))
    else some ((), c :: rest)
  | [] => some ((), [])

/-- A fraction, if one follows, and an exponent, if one follows then. -/
def fraction? : Reads Unit
  | '.' :: rest => do
    let (_, rest) ← digits? rest
    exponent? rest
  | cs => exponent? cs

def magnitude? : Reads Unit := fun cs => do
  let (whole, rest) ← digits? cs
  if whole.head? = some '0' ∧ 1 < whole.length then none else fraction? rest

def number? : Reads Unit
  | '-' :: rest => magnitude? rest
  | cs => magnitude? cs

/-- A value with arrays and objects nested at most so many levels deep. -/
def nested? : Nat → Reads Unit
  | levels, cs =>
    match skipBlanks cs with
    | [] => none
    | c :: rest =>
      if c = '"' then text? rest
      else if c = '[' then
        match levels with
        | 0 => none
        | inner + 1 => (array? (nested? inner) rest).map (fun read => ((), read.2))
      else if c = '\x7b' then
        match levels with
        | 0 => none
        | inner + 1 => (object? text? (nested? inner) rest).map (fun read => ((), read.2))
      else if c = '-' ∨ c.isDigit then number? (c :: rest)
      else (keyword? (c :: rest)).map (fun read => ((), read.2))

/-- A value. Each level of nesting takes a character, so there are no more levels than characters. -/
def value? : Reads Unit := fun cs => nested? cs.length cs

end GatewayCache.Json.Form
