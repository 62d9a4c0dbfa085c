import Replica.Duration
import Replica.Text.Blank
import Replica.Text.Quoted

/-!
# Durations as texts

A duration is written as a row of numbers with units, `1h 30m` or `1.5s`: digits, a fraction if
wanted, then the letters of a unit.  Blanks may stand between all of these, and within the digits.

`Duration.parse` reads such a text.  All arithmetic is in 64 bits, and a fraction must come to a
whole number of nanoseconds, in units of an hour and more of seconds.
-/

namespace Replica

/-- Why a text is no duration.  Offsets count the bytes before the place. -/
inductive DurationError where
  /-- There is no number at all. -/
  | empty
  /-- Something else stands where a number must begin. -/
  | numberExpected (offset : Nat)
  /-- A character can neither go on with the number nor with the unit. -/
  | invalidCharacter (offset : Nat)
  /-- A number is too large, or too fine for nanoseconds. -/
  | overflow
  /-- The letters after a number name no unit. -/
  | unknownUnit (unit : String) (number : Nat)
  /-- The sum is one nanosecond more than the longest duration. -/
  | pastLongest
  deriving DecidableEq, Inhabited

/-- The wording of a failure to read a duration. -/
def DurationError.message : DurationError → String
  | .empty => "value was empty"
  | .numberExpected off => "expected number at " ++ toString off
  | .invalidCharacter off => "invalid character at " ++ toString off
  | .overflow | .pastLongest =>
    "number is too large or cannot be represented without a lack of precision "
      ++ "(values below 1ns are not supported)"
  | .unknownUnit unit n =>
    if unit.isEmpty then
      "time unit needed, for example " ++ toString n ++ "sec or " ++ toString n ++ "ms"
    else
      "unknown time unit " ++ Text.quoted unit ++ ", supported units: ns, us/µs, ms, sec, min, "
        ++ "hours, days, weeks, months, years (and few variations)"

namespace Duration

/-! ### Units -/

/-- What a unit counts. -/
inductive Scale where
  /-- So many nanoseconds, added to the nanoseconds. -/
  | nanos (n : Nat)
  /-- So many seconds; of a fraction of the unit, the nanoseconds count if `fine`. -/
  | secs (n : Nat) (fine : Bool)

/-- The unit of a name. -/
def scale? (unit : String) : Option Scale :=
  if ["nanos", "nsec", "ns"].contains unit then some (.nanos 1)
  else if ["usec", "us", "µs"].contains unit then some (.nanos 1000)
  else if ["millis", "msec", "ms"].contains unit then some (.nanos 1000000)
  else if ["seconds", "second", "secs", "sec", "s"].contains unit then some (.secs 1 true)
  else if ["minutes", "minute", "min", "mins", "m"].contains unit then some (.secs 60 true)
  else if ["hours", "hour", "hr", "hrs", "h"].contains unit then some (.secs 3600 false)
  else if ["days", "day", "d"].contains unit then some (.secs 86400 false)
  else if ["weeks", "week", "wk", "wks", "w"].contains unit then some (.secs 604800 false)
  else if ["months", "month", "M"].contains unit then some (.secs 2630016 false)
  else if ["years", "year", "yr", "yrs", "y"].contains unit then some (.secs 31557600 false)
  else none

/-! ### Arithmetic in 64 bits -/

/-- A number that must fit into 64 bits. -/
def word (n : Nat) : Except DurationError Nat := if n < Nat.pow 2 64 then .ok n else .error .overflow

/-- A quotient that must be whole. -/
def exactDiv (n d : Nat) : Except DurationError Nat :=
  if n % d = 0 then .ok (n / d) else .error .overflow

/-- The sum of a duration and further seconds and nanoseconds. -/
def plus (total : Duration) (secs nanos : Nat) : Except DurationError Duration := do
  let nanos ← word (total.subsecNanos + nanos)
  let sum := ofParts (total.secs + secs) nanos
  if nanos = nanosPerSec ∧ total.secs + secs + 1 = secsLimit then .error .pastLongest
  else if sum.secs < secsLimit then .ok sum
  else .error .overflow

/-- A fraction as it was written: its digits as a number, and the power of ten they are over. -/
structure Fraction where
  numerator : Nat
  denominator : Nat

/-- Adds a number of units. -/
def plusUnits (total : Duration) (n : Nat) (fraction : Option Fraction) (unit : String) :
    Except DurationError Duration := do
  let some scale := scale? unit | .error (.unknownUnit unit n)
  let total ← match scale with
    | .nanos k => do total.plus 0 (← word (n * k))
    | .secs k _ => do total.plus (← word (n * k)) 0
  match fraction, scale with
  | none, _ => .ok total
  | some _, .nanos 1 => .error .overflow
  | some f, .nanos k => do
    total.plus 0 (← exactDiv (← word (f.numerator * k)) f.denominator)
  | some f, .secs k true => do
    total.plus 0 (← exactDiv (← word (f.numerator * (k * nanosPerSec))) f.denominator)
  | some f, .secs k false => do
    total.plus (← exactDiv (← word (f.numerator * k)) f.denominator) 0

/-! ### Reading -/

/-- Characters still to be read, and the number of bytes before them. -/
structure Cursor where
  offset : Nat
  rest : List Char

/-- The value of a digit. -/
def digitOf (c : Char) : Nat := c.toNat - '0'.toNat

/-- Whether a character can stand in a unit. -/
def isUnitChar (c : Char) : Bool := c.isAlpha || c == 'µ'

/-- The first digit of the next number, if there is one, after blanks; `start` is where these
began. -/
def firstDigit (start offset : Nat) : List Char → Except DurationError (Option (Nat × Cursor))
  | [] => .ok none
  | c :: cs =>
    if c.isDigit then .ok (some (digitOf c, ⟨offset + 1, cs⟩))
    else if Text.isBlank c then firstDigit start (offset + c.utf8Size) cs
    else .error (.numberExpected start)

/-- The digits after the point up to the first letter of a unit, which is left in the rest; `last`
is the place that an error names. -/
def fractionDigits (last offset : Nat) (f : Fraction) :
    List Char → Except DurationError (Fraction × Cursor)
  | [] => if f.denominator = 1 then .error (.invalidCharacter last) else .ok (f, ⟨offset, []⟩)
  | c :: cs =>
    let next := offset + c.utf8Size
    if c.isDigit then do
      let denominator ← word (f.denominator * 10)
      let numerator ← word (f.numerator * 10 + digitOf c)
      fractionDigits next next ⟨numerator, denominator⟩ cs
    else if Text.isBlank c then fractionDigits next next f cs
    else if isUnitChar c then
      if f.denominator = 1 then .error (.invalidCharacter last) else .ok (f, ⟨offset, c :: cs⟩)
    else .error (.invalidCharacter last)

/-- The further digits of a number and its fraction, up to the first letter of a unit. -/
def numberDigits (n offset : Nat) :
    List Char → Except DurationError (Nat × Option Fraction × Cursor)
  | [] => .ok (n, none, ⟨offset, []⟩)
  | c :: cs =>
    let next := offset + c.utf8Size
    if c.isDigit then do numberDigits (← word (n * 10 + digitOf c)) next cs
    else if Text.isBlank c then numberDigits n next cs
    else if isUnitChar c then .ok (n, none, ⟨offset, c :: cs⟩)
    else if c = '.' then do
      let (f, cursor) ← fractionDigits offset next ⟨0, 1⟩ cs
      return (n, some f, cursor)
    else .error (.invalidCharacter offset)

/-- The letters of a unit, collected in reverse, and what follows: a blank is taken with them, a
digit is left. -/
def unitLetters (acc : List Char) (offset : Nat) :
    List Char → Except DurationError (String × Cursor)
  | [] => .ok (String.ofList acc.reverse, ⟨offset, []⟩)
  | c :: cs =>
    let next := offset + c.utf8Size
    if isUnitChar c then unitLetters (c :: acc) next cs
    else if c.isDigit then .ok (String.ofList acc.reverse, ⟨offset, c :: cs⟩)
    else if Text.isBlank c then .ok (String.ofList acc.reverse, ⟨next, cs⟩)
    else .error (.invalidCharacter offset)

/-- Adds numbers with units until the text ends. -/
def parseFrom : Nat → Duration → Nat → Cursor → Except DurationError Duration
  | 0, total, _, _ => .ok total
  | fuel + 1, total, digit, cursor => do
    let (n, fraction, cursor) ← numberDigits digit cursor.offset cursor.rest
    let (unit, cursor) ← unitLetters [] cursor.offset cursor.rest
    let total ← total.plusUnits n fraction unit
    match ← firstDigit cursor.offset cursor.offset cursor.rest with
    | none => return total
    | some (digit, cursor) => parseFrom fuel total digit cursor

/-- Reads a duration.  The text `0` stands for no time at all, without a unit. -/
def parse (s : String) : Except DurationError Duration := do
  if s = "0" then return ⟨0⟩
  match ← firstDigit 0 0 s.toList with
  | none => .error .empty
  | some (digit, cursor) => parseFrom (s.length + 1) ⟨0⟩ digit cursor

end Duration

end Replica
