import GatewayCache.Json.Number
import GatewayCache.Text.Blank

/-! # Timestamps

Points in time as texts of RFC 3339 show them. The reader is lenient about blanks
and about the number of digits; the writer always gives UTC and the fewest digits
of the fraction, in groups of three. A leap second counts as the second before it
with more than a second of nanoseconds.
-/

namespace GatewayCache

/-- A point in time. -/
structure Timestamp where
  /-- The seconds since the Unix epoch. -/
  seconds : Int
  /-- The nanoseconds on top, a billion or more within a leap second. -/
  nanos : Nat
  deriving Repr, DecidableEq

namespace Timestamp

/-- Whether a year has a 29th of February. -/
def isLeapYear (year : Int) : Bool := year % 4 = 0 ∧ (year % 100 ≠ 0 ∨ year % 400 = 0)

/-- The number of days of a month. -/
def monthLength (year : Int) (month : Nat) : Nat :=
  match month with
  | 4 | 6 | 9 | 11 => 30
  | 2 => if isLeapYear year then 29 else 28
  | _ => 31

/-- The days from the first of March of year zero to a date. Years are counted from March, so that
the leap day comes last. -/
def dayNumber (year : Int) (month day : Nat) : Int :=
  let marchYear := if month ≤ 2 then year - 1 else year
  let marchMonth := (month + 9) % 12
  marchYear * 365 + marchYear / 4 - marchYear / 100 + marchYear / 400 +
    ((marchMonth * 153 + 2) / 5 + day - 1 : Nat)

/-- The day number of the first of January 1970. -/
def epochDay : Int := dayNumber 1970 1 1

def dateOf (day : Int) : Int × Nat × Nat :=
  let era := day / 146097
  let dayOfEra := (day % 146097).toNat
  let yearOfEra :=
    (dayOfEra - dayOfEra / 1460 + dayOfEra / 36524 - dayOfEra / 146096) / 365
  let dayOfYear := dayOfEra - (365 * yearOfEra + yearOfEra / 4 - yearOfEra / 100)
  let marchMonth := (5 * dayOfYear + 2) / 153
  let day := dayOfYear - (153 * marchMonth + 2) / 5 + 1
  let month := if marchMonth < 10 then marchMonth + 3 else marchMonth - 9
  let year : Int := yearOfEra + era * 400
  (if month ≤ 2 then year + 1 else year, month, day)

/-- The first and the last year of the calendar. -/
def yearRange : Int × Int := (-262143, 262142)

/-- Whether a year is in the calendar. -/
def isYear (year : Int) : Bool := yearRange.1 ≤ year ∧ year ≤ yearRange.2

/-- The time so many milliseconds after the Unix epoch. -/
def ofMillis (millis : Nat) : Timestamp := ⟨(millis / 1000 : Nat), millis % 1000 * 1000000⟩

/-- Decimal digits with zeros before them up to a width. -/
def padded (width n : Nat) : List Char :=
  let digits := Number.decimal n
  List.replicate (width - digits.length) '0' ++ digits

/-- A year in four digits, or with a sign where four digits do not do. -/
def yearChars (year : Int) : List Char :=
  if 0 ≤ year ∧ year ≤ 9999 then padded 4 year.toNat
  else (if year < 0 then '-' else '+') :: padded 4 year.natAbs

/-- The fraction of a second in as few groups of three digits as are exact. -/
def fractionChars (nanos : Nat) : List Char :=
  if nanos = 0 then []
  else if nanos % 1000000 = 0 then '.' :: padded 3 (nanos / 1000000)
  else if nanos % 1000 = 0 then '.' :: padded 6 (nanos / 1000)
  else '.' :: padded 9 nanos

def toText (time : Timestamp) : String :=
  let (year, month, day) := dateOf (time.seconds / 86400 + epochDay)
  let second := (time.seconds % 86400).toNat
  let extra := time.nanos / 1000000000
  String.ofList (yearChars year ++ '-' :: padded 2 month ++ '-' :: padded 2 day ++
    'T' :: padded 2 (second / 3600) ++ ':' :: padded 2 (second / 60 % 60) ++
    ':' :: padded 2 (second % 60 + extra) ++ fractionChars (time.nanos % 1000000000) ++ ['Z'])

/-- A reading function: what was read and the characters left, or nothing. -/
abbrev Reads (α : Type) := List Char → Option (α × List Char)

/-- The number of the digits ahead, at least one and at most so many. -/
def number? (most : Nat) (cs : List Char) : Option (Nat × List Char) :=
  let digits := (cs.takeWhile Char.isDigit).take most
  if digits.isEmpty then none
  else some (digits.foldl (fun n d => n * 10 + (d.toNat - '0'.toNat)) 0, cs.drop digits.length)

/-- A number of at most two digits within bounds, behind white space. -/
def part? (least greatest : Nat) (cs : List Char) : Option (Nat × List Char) := do
  let (n, rest) ← number? 2 (Text.trimStart cs)
  if least ≤ n ∧ n ≤ greatest then some (n, rest) else none

/-- A year of at most four digits, or of any number behind a sign. -/
def year? (cs : List Char) : Option (Int × List Char) :=
  match Text.trimStart cs with
  | '-' :: rest => (number? rest.length rest).map (fun read => (-(read.1 : Int), read.2))
  | '+' :: rest => (number? rest.length rest).map (fun read => ((read.1 : Int), read.2))
  | rest => (number? 4 rest).map (fun read => ((read.1 : Int), read.2))

/-- The characters after a separator with white space before it. -/
def separator? (c : Char) (cs : List Char) : Option (List Char) :=
  match Text.trimStart cs with
  | d :: rest => if d = c then some rest else none
  | [] => none

/-- The characters after what parts the date from the time. -/
def timeMark? : List Char → Option (List Char)
  | c :: rest => if c = 'T' ∨ c = 't' ∨ c = ' ' then some rest else none
  | [] => none

/-- The nanoseconds of a fraction, of which nine digits count, if one follows. -/
def fraction? : Reads Nat
  | '.' :: rest => do
    let (n, after) ← number? 9 rest
    some (n * Nat.pow 10 (9 - (rest.length - after.length)), after.dropWhile Char.isDigit)
  | cs => some (0, cs)

def twoDigits? : Reads Nat
  | a :: b :: rest =>
    if a.isDigit ∧ b.isDigit then
      some ((a.toNat - '0'.toNat) * 10 + (b.toNat - '0'.toNat), rest)
    else none
  | _ => none

/-- The minutes by which a clock is ahead of UTC, after its sign. -/
def clock? (cs : List Char) : Option (Nat × List Char) := do
  let (hours, rest) ← twoDigits? cs
  let (minutes, rest) ← twoDigits? (rest.dropWhile (fun c => c = ':' || Text.isBlank c))
  if minutes < 60 ∧ hours < 24 then some (hours * 60 + minutes, rest) else none

/-- The minutes by which the local time is ahead of UTC. -/
def offset? : Reads Int
  | [] => none
  | c :: rest =>
    if c = 'Z' ∨ c = 'z' then some (0, rest)
    else if c = '+' then (clock? rest).map (fun read => ((read.1 : Int), read.2))
    else if c = '-' ∨ c = '\u2212' then (clock? rest).map (fun read => (-(read.1 : Int), read.2))
    else
      match rest with
      | t :: u :: rest =>
        if c.toUpper = 'U' ∧ t.toUpper = 'T' ∧ u.toUpper = 'C' then some (0, rest) else none
      | _ => none

def date? (cs : List Char) : Option ((Int × Nat × Nat) × List Char) := do
  let (year, cs) ← year? cs
  let (month, cs) ← part? 1 12 (← separator? '-' cs)
  let (day, cs) ← part? 1 31 (← separator? '-' cs)
  if isYear year ∧ day ≤ monthLength year month then some ((year, month, day), cs) else none

/-- A time of day, as the seconds since midnight and the nanoseconds on top. -/
def timeOfDay? (cs : List Char) : Option ((Nat × Nat) × List Char) := do
  let (hour, cs) ← part? 0 23 cs
  let (minute, cs) ← part? 0 59 (← separator? ':' cs)
  let (second, cs) ← part? 0 60 (← separator? ':' cs)
  let (nanos, cs) ← fraction? cs
  let (second, nanos) := if second = 60 then (59, nanos + 1000000000) else (second, nanos)
  some ((hour * 3600 + minute * 60 + second, nanos), cs)

/-- The time of a text with date, time of day and offset. -/
def ofText? (text : String) : Option Timestamp := do
  let ((year, month, day), cs) ← date? text.toList
  let ((second, nanos), cs) ← timeOfDay? (← timeMark? cs)
  let (offset, cs) ← offset? (Text.trimStart cs)
  let seconds := (dayNumber year month day - epochDay) * 86400 + second - offset * 60
  if (Text.trimStart cs).isEmpty ∧ isYear (dateOf (seconds / 86400 + epochDay)).1 then
    some ⟨seconds, nanos⟩
  else none

end Timestamp

end GatewayCache
