import GatewayCache.Json.Basic

/-! # Reading JSON

A strict reader: one value with nothing but blanks around it. Every reading
function takes the characters ahead and gives what it read with the characters
left. Nesting is bounded by a number of levels, on which the reader of values
recurses; texts, items and fields recurse on the number of characters ahead.
-/

namespace GatewayCache.Json.Reader

/-- A reading function: what was read and the characters left, or nothing. -/
abbrev Reads (α : Type) := List Char → Option (α × List Char)

def isBlank (c : Char) : Bool := c == ' ' || c == '\t' || c == '\n' || c == '\r'

/-- The characters from the first that is not blank. -/
def skipBlanks (cs : List Char) : List Char := cs.dropWhile isBlank

def digitValue (c : Char) : Nat := c.toNat - '0'.toNat

/-- The value of a hexadecimal digit of either case. -/
def hexValue? (c : Char) : Option Nat :=
  if c.isDigit then some (digitValue c)
  else if 'a' ≤ c ∧ c ≤ 'f' then some (c.toNat - 'a'.toNat + 10)
  else if 'A' ≤ c ∧ c ≤ 'F' then some (c.toNat - 'A'.toNat + 10)
  else none

def hexUnit? : Reads Nat
  | a :: b :: c :: d :: rest => do
    let a ← hexValue? a
    let b ← hexValue? b
    let c ← hexValue? c
    let d ← hexValue? d
    some (((a * 16 + b) * 16 + c) * 16 + d, rest)
  | _ => none

/-- The character of a unit and, for the first half of a pair, the second half after it. A half
without its other half is no character. -/
def unitChar? (unit : Nat) (rest : List Char) : Option (Char × List Char) :=
  if 0xDC00 ≤ unit ∧ unit ≤ 0xDFFF then none
  else if 0xD800 ≤ unit ∧ unit ≤ 0xDBFF then
    match rest with
    | '\\' :: 'u' :: rest => do
      let (low, rest) ← hexUnit? rest
      if 0xDC00 ≤ low ∧ low ≤ 0xDFFF then
        some (Char.ofNat (0x10000 + (unit - 0xD800) * 0x400 + (low - 0xDC00)), rest)
      else none
    | _ => none
  else some (Char.ofNat unit, rest)

def escaped? : Reads Char
  | [] => none
  | c :: rest =>
    if c = 'u' then do
      let (unit, rest) ← hexUnit? rest
      unitChar? unit rest
    else if c = '"' ∨ c = '\\' ∨ c = '/' then some (c, rest)
    else if c = 'b' then some ('\x08', rest)
    else if c = 'f' then some ('\x0c', rest)
    else if c = 'n' then some ('\n', rest)
    else if c = 'r' then some ('\r', rest)
    else if c = 't' then some ('\t', rest)
    else none

/-- The characters up to the closing quote, after those `before`, last first. -/
def textFrom? : Nat → List Char → Reads String
  | 0, _, _ => none
  | _ + 1, _, [] => none
  | fuel + 1, before, c :: rest =>
    if c = '"' then some (String.ofList before.reverse, rest)
    else if c = '\\' then do
      let (read, rest) ← escaped? rest
      textFrom? fuel (read :: before) rest
    else if c.toNat < 32 then none
    else textFrom? fuel (c :: before) rest

def text? (cs : List Char) : Option (String × List Char) := textFrom? (cs.length + 1) [] cs

/-- The digits taken into a significand while it stays below `2 ^ 64`, and the digits left out. -/
def accumulate (significand : Nat) : List Char → Nat × List Char
  | [] => (significand, [])
  | d :: ds =>
    let next := significand * 10 + digitValue d
    if next < UInt64.size then accumulate next ds else (significand, d :: ds)

/-- The float of a literal: its significand rounded, then scaled by its power of ten. -/
def float? (negative : Bool) (significand : Nat) (exponent : Int) : Option Number := do
  let rounded ← Binary64.ofNat? significand
  let value ← rounded.scaleTen? exponent
  some (.float { value with negative })

/-- The number of a literal without fraction and exponent. -/
def integer? (negative : Bool) (n : Nat) : Option Number :=
  if negative = false then some (.unsigned n.toUInt64)
  else if n = 0 then some (.float (Binary64.zero true))
  else if h : n - 1 < negativeCount then some (.negative ⟨n - 1, h⟩)
  else float? true n 0

def digits? (cs : List Char) : Option (List Char × List Char) :=
  let ds := cs.takeWhile Char.isDigit
  if ds.isEmpty then none else some (ds, cs.dropWhile Char.isDigit)

def exponent? (cs : List Char) : Option (Int × List Char) :=
  let (negative, cs) :=
    match cs with
    | '-' :: rest => (true, rest)
    | '+' :: rest => (false, rest)
    | _ => (false, cs)
  do
    let (ds, rest) ← digits? cs
    let size : Int := (ds.foldl (fun n d => n * 10 + digitValue d) 0 : Nat)
    some (if negative then -size else size, rest)

/-- The float of a literal with its fraction read, and an exponent if one follows. -/
def scaled? (negative : Bool) (significand : Nat) (exponent : Int) : Reads Number
  | c :: rest =>
    if c = 'e' ∨ c = 'E' then do
      let (shift, rest) ← exponent? rest
      let value ← float? negative significand (exponent + shift)
      some (value, rest)
    else do
      let value ← float? negative significand exponent
      some (value, c :: rest)
  | [] => do
    let value ← float? negative significand exponent
    some (value, [])

def magnitude? (negative : Bool) (cs : List Char) : Option (Number × List Char) := do
  let (whole, rest) ← digits? cs
  if whole.head? = some '0' ∧ 1 < whole.length then none
  else
    let (significand, left) := accumulate 0 whole
    match rest with
    | '.' :: rest => do
      let (fraction, rest) ← digits? rest
      let (significand, dropped) := accumulate significand fraction
      scaled? negative significand ((left.length : Int) - fraction.length + dropped.length) rest
    | _ =>
      if rest.head? = some 'e' ∨ rest.head? = some 'E' ∨ left.isEmpty = false then
        scaled? negative significand left.length rest
      else do
        let value ← integer? negative significand
        some (value, rest)

def number? : Reads Number
  | '-' :: rest => magnitude? true rest
  | cs => magnitude? false cs

def keyword? : Reads Json
  | 'n' :: 'u' :: 'l' :: 'l' :: rest => some (.null, rest)
  | 't' :: 'r' :: 'u' :: 'e' :: rest => some (.bool true, rest)
  | 'f' :: 'a' :: 'l' :: 's' :: 'e' :: rest => some (.bool false, rest)
  | _ => none

/-- The items of an array from one on, to the closing bracket. -/
def items? {α : Type} (value : Reads α) : Nat → Reads (List α)
  | 0, _ => none
  | fuel + 1, cs => do
    let (item, rest) ← value cs
    match skipBlanks rest with
    | ',' :: rest => do
      let (more, rest) ← items? value fuel rest
      some (item :: more, rest)
    | ']' :: rest => some ([item], rest)
    | _ => none

/-- The fields of an object from one on, to the closing brace. Keys are read after their opening
quotes. -/
def fields? {κ α : Type} (key : Reads κ) (value : Reads α) : Nat → Reads (List (κ × α))
  | 0, _ => none
  | fuel + 1, cs =>
    match skipBlanks cs with
    | '"' :: rest => do
      let (name, rest) ← key rest
      match skipBlanks rest with
      | ':' :: rest => do
        let (item, rest) ← value rest
        match skipBlanks rest with
        | ',' :: rest => do
          let (more, rest) ← fields? key value fuel rest
          some ((name, item) :: more, rest)
        | '\x7d' :: rest => some ([(name, item)], rest)
        | _ => none
      | _ => none
    | _ => none

/-- The items of an array after its opening bracket. -/
def array? {α : Type} (value : Reads α) : Reads (List α) := fun cs =>
  match skipBlanks cs with
  | ']' :: rest => some ([], rest)
  | cs => items? value cs.length cs

/-- The fields of an object after its opening brace. -/
def object? {κ α : Type} (key : Reads κ) (value : Reads α) : Reads (List (κ × α)) := fun cs =>
  match skipBlanks cs with
  | '\x7d' :: rest => some ([], rest)
  | cs => fields? key value cs.length cs

/-- A value with arrays and objects nested at most so many levels deep; of a repeated key the last field
counts. -/
def value? : Nat → Reads Json
  | levels, cs =>
    match skipBlanks cs with
    | [] => none
    | c :: rest =>
      if c = '"' then do
        let (text, rest) ← text? rest
        some (.str text, rest)
      else if c = '[' then
        match levels with
        | 0 => none
        | inner + 1 => do
          let (items, rest) ← array? (value? inner) rest
          some (.arr items, rest)
      else if c = '\x7b' then
        match levels with
        | 0 => none
        | inner + 1 => do
          let (pairs, rest) ← object? text? (value? inner) rest
          some (Json.object pairs, rest)
      else if c = '-' ∨ c.isDigit then do
        let (value, rest) ← number? (c :: rest)
        some (.num value, rest)
      else keyword? (c :: rest)

end GatewayCache.Json.Reader

namespace GatewayCache.Json

/-- The levels of nesting that texts may have. -/
def maxLevels : Nat := 127

/-- The value of a text that holds one value nested at most so many levels deep, and blanks. -/
def readNested? (levels : Nat) (text : String) : Option Json :=
  match Reader.value? levels text.toList with
  | some (value, rest) => if (Reader.skipBlanks rest).isEmpty then some value else none
  | none => none

def read? (text : String) : Option Json := readNested? maxLevels text

end GatewayCache.Json
