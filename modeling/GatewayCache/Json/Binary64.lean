/-! # Finite double-precision numbers

A finite double is held exactly, as `± mantissa · 2 ^ exponent`. Rounding a
quotient of natural numbers is the one primitive: products, quotients, readback
of decimal digits and the search for the shortest digits are all stated with it.
-/

namespace GatewayCache

/-- A finite double, of value `± mantissa * 2 ^ exponent`. -/
structure Binary64 where
  /-- The sign bit, which zero has as well. -/
  negative : Bool
  /-- The significand, below `2 ^ 53`. -/
  mantissa : Nat
  /-- The power of two, from `-1074` to `971`. -/
  exponent : Int
  deriving Repr, DecidableEq

namespace Binary64

/-- The exponent of zero and of the subnormal numbers. -/
def minExponent : Int := -1074

/-- The exponent of the largest finite numbers. -/
def maxExponent : Int := 971

def zero (negative : Bool) : Binary64 := ⟨negative, 0, minExponent⟩

/-- Two doubles have the same value when they are equal or both zero. -/
def sameValue (x y : Binary64) : Bool :=
  decide (x = y) || (x.mantissa == 0 && y.mantissa == 0)

/-- The quotient `num / den`, divided by `2 ^ exponent`, as a numerator and a denominator. -/
def scaled (num den : Nat) (exponent : Int) : Nat × Nat :=
  if exponent < 0 then (num <<< (-exponent).toNat, den)
  else (num, den <<< exponent.toNat)

/-- The quotient rounded to the nearest natural number, a half to the even neighbour. -/
def nearestEven (num den : Nat) : Nat :=
  let floor := num / den
  let twice := 2 * (num % den)
  if twice < den then floor
  else if den < twice then floor + 1
  else floor + floor % 2

/-- The least exponent at which the quotient fits 53 bits, not below that of the subnormals. -/
def exponentFor (num den : Nat) : Int :=
  let guess : Int := (num.log2 : Int) - (den.log2 : Int) - 53
  let (n, d) := scaled num den guess
  max minExponent (if n / d < 1 <<< 53 then guess else guess + 1)

/-- The double nearest to `± num / den`, a tie to the even mantissa; nothing beyond the finite range. -/
def round? (negative : Bool) (num den : Nat) : Option Binary64 :=
  if num = 0 then some (zero negative)
  else
    let exponent := exponentFor num den
    let (n, d) := scaled num den exponent
    let mantissa := nearestEven n d
    let rounded : Binary64 :=
      if mantissa = 1 <<< 53 then ⟨negative, 1 <<< 52, exponent + 1⟩
      else ⟨negative, mantissa, exponent⟩
    if maxExponent < rounded.exponent then none else some rounded

def ratio (x : Binary64) : Nat × Nat := scaled x.mantissa 1 (-x.exponent)

/-- The double nearest to a natural number. -/
def ofNat? (n : Nat) : Option Binary64 := round? false n 1

def mul? (x y : Binary64) : Option Binary64 :=
  round? false (x.ratio.1 * y.ratio.1) (x.ratio.2 * y.ratio.2)

/-- The rounded quotient of the magnitudes, for a divisor that is not zero. -/
def div? (x y : Binary64) : Option Binary64 :=
  round? false (x.ratio.1 * y.ratio.2) (x.ratio.2 * y.ratio.1)

/-- The double nearest to a power of ten. -/
def tenPower? (n : Nat) : Option Binary64 := ofNat? (Nat.pow 10 n)

/-- The exponent of the largest power of ten that is no larger than the largest double. -/
def maxTenPower : Nat := 308

/-- A magnitude times `10 ^ exponent`, rounded once, or divided by `10 ^ 308` first where the power
of ten itself is too small to be a double. -/
def scaleTen? (x : Binary64) (exponent : Int) : Option Binary64 :=
  if x.mantissa = 0 then some x
  else if 0 ≤ exponent then
    if exponent.toNat ≤ maxTenPower then do x.mul? (← tenPower? exponent.toNat) else none
  else
    let down := (-exponent).toNat
    if down ≤ maxTenPower then do x.div? (← tenPower? down)
    else if down ≤ 2 * maxTenPower then do
      let once ← x.div? (← tenPower? maxTenPower)
      once.div? (← tenPower? (down - maxTenPower))
    else some (zero x.negative)

/-- Decimal digits and the power of ten of the last one. -/
structure Digits where
  significand : Nat
  /-- The power of ten of the last digit. -/
  exponent : Int
  deriving Repr, DecidableEq

/-- The decimal exponent of the leading digit of a quotient that is not zero. -/
def leadingExponent (num den : Nat) : Int :=
  let guess : Int := ((Nat.toDigits 10 num).length : Int) - ((Nat.toDigits 10 den).length : Int)
  let atLeast := if guess < 0 then den ≤ num * Nat.pow 10 (-guess).toNat
    else den * Nat.pow 10 guess.toNat ≤ num
  if atLeast then guess else guess - 1

/-- The value `significand * 10 ^ exponent` as an exact quotient. -/
def Digits.ratio (d : Digits) : Nat × Nat :=
  if d.exponent < 0 then (d.significand, Nat.pow 10 (-d.exponent).toNat)
  else (d.significand * Nat.pow 10 d.exponent.toNat, 1)

/-- Whether these digits read back as the number. -/
def readsBack (x : Binary64) (d : Digits) : Bool :=
  round? x.negative d.ratio.1 d.ratio.2 == some x

/-- The neighbours of the number on the grid with `count` digits that read back, nearest first, an
exact tie with the even one first. -/
def candidates (x : Binary64) (count : Nat) : List Digits :=
  let (num, den) := x.ratio
  let step := leadingExponent num den - (count : Int) + 1
  let (n, d) :=
    if step < 0 then (num * Nat.pow 10 (-step).toNat, den)
    else (num, den * Nat.pow 10 step.toNat)
  let low : Digits := ⟨n / d, step⟩
  let high : Digits := ⟨n / d + 1, step⟩
  let nearest := nearestEven n d
  (if nearest = low.significand then [low, high] else [high, low]).filter x.readsBack

/-- The fewest digits, at least `count`, on whose grid a neighbour reads back. -/
def shortestFrom (x : Binary64) (count : Nat) : Nat → Option Digits
  | 0 => none
  | more + 1 =>
    match x.candidates count with
    | digits :: _ => some digits
    | [] => x.shortestFrom (count + 1) more

/-- The digits without zeros at their end. -/
def Digits.trim (d : Digits) : Nat → Digits
  | 0 => d
  | more + 1 =>
    if d.significand % 10 = 0 ∧ d.significand ≠ 0 then
      Digits.trim ⟨d.significand / 10, d.exponent + 1⟩ more
    else d

/-- The fewest decimal digits that read back as the number; of those the nearest, of a tie the even. -/
def shortest (x : Binary64) : Digits :=
  if x.mantissa = 0 then ⟨0, 0⟩
  else ((x.shortestFrom 1 17).getD ⟨0, 0⟩).trim 17

end Binary64

end GatewayCache
