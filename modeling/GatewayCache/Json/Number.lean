import GatewayCache.Json.Binary64

/-! # Numbers in JSON

A number is an unsigned 64-bit integer, a negative integer down to `-2 ^ 63`, or
a float. The three never mix: a float is no integer, whatever its value.
-/

namespace GatewayCache

/-- How many negative integers 64 bits can hold: `2 ^ 63`. -/
abbrev negativeCount : Nat := 0x8000000000000000

/-- A number as it is kept. -/
inductive Number where
  /-- An integer from `0` to `2 ^ 64 - 1`. -/
  | unsigned (value : UInt64)
  /-- The integer `-1 - below`, from `-2 ^ 63` to `-1`. -/
  | negative (below : Fin negativeCount)
  /-- A literal with a fraction or an exponent, `-0`, or an integer out of range. -/
  | float (value : Binary64)
  deriving Repr, DecidableEq

namespace Number

/-- The number as an unsigned 64-bit integer, when it is one. -/
def unsigned? : Number → Option UInt64
  | .unsigned value => some value
  | _ => none

/-- The number as an integer, when it is not a float. -/
def int? : Number → Option Int
  | .unsigned value => some value.toNat
  | .negative below => some (-1 - (below.val : Int))
  | .float _ => none

/-- Numbers of one sort with one value; the two zeros among the floats have the same value. -/
def sameValue : Number → Number → Bool
  | .float x, .float y => x.sameValue y
  | x, y => x = y

/-- Where floats change from positional to exponent form. -/
structure FloatFormat where
  /-- The least decimal exponent written positionally. -/
  leastPositional : Int
  /-- The first decimal exponent no longer written positionally. -/
  firstScientific : Int

/-- Floats are positional from `0.00001` up to, but not including, `1e+16`. -/
def floatFormat : FloatFormat := ⟨-5, 16⟩

def decimal (n : Nat) : List Char := Nat.toDigits 10 n

/-- Digits in positional form, always with a fraction. -/
def positional (digits : List Char) (leading : Int) : List Char :=
  if leading < 0 then
    ['0', '.'] ++ List.replicate (-leading - 1).toNat '0' ++ digits
  else
    let whole := leading.toNat + 1
    let padded := digits ++ List.replicate (whole - digits.length) '0'
    let fraction := padded.drop whole
    padded.take whole ++ ['.'] ++ (if fraction.isEmpty then ['0'] else fraction)

/-- Digits in exponent form, with a point only between digits and a sign always. -/
def scientific (digits : List Char) (leading : Int) : List Char :=
  let point := if digits.length ≤ 1 then [] else ['.']
  let sign := if leading < 0 then '-' else '+'
  digits.take 1 ++ point ++ digits.drop 1 ++ ['e', sign] ++ decimal leading.natAbs

def floatText (x : Binary64) : List Char :=
  let shortest := x.shortest
  let digits := decimal shortest.significand
  let leading := shortest.exponent + (digits.length : Int) - 1
  let body :=
    if floatFormat.leastPositional ≤ leading ∧ leading < floatFormat.firstScientific then
      positional digits leading
    else scientific digits leading
  if x.negative then '-' :: body else body

def text : Number → List Char
  | .unsigned value => decimal value.toNat
  | .negative below => '-' :: decimal (below.val + 1)
  | .float value => floatText value

end Number

end GatewayCache
