import Replica.Text.Hex
import Replica.Toml.Value

/-!
# Numbers, dates and truth values in TOML

A scalar without quotes is a word of letters, digits and the signs `+ - _ . :`; `Scalar.value?`
classifies the whole word.  Digits may be grouped by single underscores, and a decimal whole number
has no leading zero.  Whole numbers fit into 64 bits with sign; a number with a fraction must not be
too large for a double; dates and times are checked against the calendar and the clock.
-/

namespace Replica.Toml.Scalar

/-- Whether a character can stand in a scalar without quotes. -/
def isWordChar (c : Char) : Bool :=
  c.isAlphanum || c == '+' || c == '-' || c == '_' || c == '.' || c == ':'

/-! ### Numbers -/

/-- The digits of a number without the underscores between them. -/
def ungroup? (isDigit : Char → Bool) : List Char → Option (List Char)
  | [] => none
  | [c] => if isDigit c then some [c] else none
  | c :: '_' :: cs => if isDigit c then (ungroup? isDigit cs).map (c :: ·) else none
  | c :: cs => if isDigit c then (ungroup? isDigit cs).map (c :: ·) else none

/-- A word without its sign, and whether that is a minus. -/
def unsigned : List Char → Bool × List Char
  | '-' :: cs => (true, cs)
  | '+' :: cs => (false, cs)
  | cs => (false, cs)

/-- The value of digits in a base. -/
def ofDigits (base : Nat) (cs : List Char) : Nat :=
  cs.foldl (fun n c => base * n + (Text.hexDigit? c).getD 0) 0

/-- Decimal digits without a leading zero. -/
def decimal? (cs : List Char) : Option (List Char) := do
  let ds ← ungroup? Char.isDigit cs
  if ds.length > 1 && ds.head? == some '0' then none else some ds

/-- One more than the largest whole number. -/
def integerLimit : Int := Nat.pow 2 63

/-- A whole number in range. -/
def inRange? (n : Int) : Option Value :=
  if -integerLimit ≤ n ∧ n < integerLimit then some (.integer n) else none

/-- A whole number, decimal or in base sixteen, eight or two. -/
def integer? : List Char → Option Value
  | '0' :: 'x' :: cs => do
    inRange? (ofDigits 16 (← ungroup? (fun c => (Text.hexDigit? c).isSome) cs))
  | '0' :: 'o' :: cs => do
    inRange? (ofDigits 8 (← ungroup? (fun c => '0' ≤ c && c ≤ '7') cs))
  | '0' :: 'b' :: cs => do inRange? (ofDigits 2 (← ungroup? (fun c => c == '0' || c == '1') cs))
  | cs => do
    let (negative, cs) := unsigned cs
    let n : Int := ofDigits 10 (← decimal? cs)
    inRange? (if negative then -n else n)

/-- The least number that no double is nearest to: half a step above the largest double. -/
def doubleBound : Nat := Nat.pow 2 1024 - Nat.pow 2 970

/-- Whether `m · 10 ^ e` is too large for a double; `digits` is the number of digits of `m`. -/
def tooLarge (m digits : Nat) (e : Int) : Bool :=
  m != 0 && decide (310 < digits + e ∨
    (0 ≤ e ∧ doubleBound ≤ m * Nat.pow 10 e.toNat) ∨
    (-400 ≤ e ∧ e < 0 ∧ doubleBound * Nat.pow 10 e.natAbs ≤ m))

/-- The parts of a list before and after the first character that satisfies `p`. -/
def cut (p : Char → Bool) (cs : List Char) : List Char × Option (List Char) :=
  match cs.dropWhile (!p ·) with
  | [] => (cs, none)
  | _ :: rest => (cs.takeWhile (!p ·), some rest)

/-- A number with a fraction or an exponent, or one of the words for no proper number. -/
def float? (word : List Char) : Option Value := do
  let (negative, cs) := unsigned word
  if cs = "inf".toList ∨ cs = "nan".toList then return .float (String.ofList word)
  let (mantissa, exponent) := cut (fun c => c == 'e' || c == 'E') cs
  let (whole, fraction) := cut (· == '.') mantissa
  if fraction.isNone && exponent.isNone then none
  let whole ← decimal? whole
  let fraction ← match fraction with
    | some f => ungroup? Char.isDigit f
    | none => some []
  let e : Int ← match exponent with
    | none => some 0
    | some e => do
      let (down, e) := unsigned e
      let n : Int := ofDigits 10 (← ungroup? Char.isDigit e)
      pure (if down then -n else n)
  let digits := (whole ++ fraction).dropWhile (· == '0')
  if !negative && tooLarge (ofDigits 10 digits) digits.length (e - fraction.length) then none
  else some (.float (String.ofList word))

/-! ### Dates and times -/

/-- The number of exactly two digits. -/
def twoDigits? : List Char → Option Nat
  | [a, b] => if a.isDigit && b.isDigit then some (ofDigits 10 [a, b]) else none
  | _ => none

/-- The days of a month. -/
def daysIn (year month : Nat) : Nat :=
  if month = 2 then
    if year % 4 = 0 ∧ (year % 100 ≠ 0 ∨ year % 400 = 0) then 29 else 28
  else if [4, 6, 9, 11].contains month then 30
  else 31

/-- Whether a text is a day of the calendar, `YYYY-MM-DD`. -/
def isDate (cs : List Char) : Bool :=
  match cs with
  | [y1, y2, y3, y4, '-', m1, m2, '-', d1, d2] =>
    match twoDigits? [y1, y2], twoDigits? [y3, y4], twoDigits? [m1, m2], twoDigits? [d1, d2] with
    | some century, some year, some month, some day =>
      1 ≤ month && month ≤ 12 && 1 ≤ day && day ≤ daysIn (100 * century + year) month
    | _, _, _, _ => false
  | _ => false

/-- Whether two digits are a number up to `most`. -/
def isUpTo (most : Nat) (cs : List Char) : Bool := (twoDigits? cs).any (· ≤ most)

/-- Whether a text is a time of day, `HH:MM:SS` with an optional fraction of the second. -/
def isTime (cs : List Char) : Bool :=
  match cs with
  | h1 :: h2 :: ':' :: m1 :: m2 :: ':' :: s1 :: s2 :: rest =>
    isUpTo 23 [h1, h2] && isUpTo 59 [m1, m2] && isUpTo 60 [s1, s2] &&
      match rest with
      | [] => true
      | '.' :: ds => !ds.isEmpty && ds.all Char.isDigit
      | _ => false
  | _ => false

/-- Whether a text is a time of day, with the distance from universal time or without. -/
def isZonedTime (cs : List Char) : Bool :=
  let (time, zone) := (cs.takeWhile fun c => c.isDigit || c == ':' || c == '.',
    cs.dropWhile fun c => c.isDigit || c == ':' || c == '.')
  isTime time &&
    match zone with
    | [] | ['Z'] | ['z'] => true
    | [sign, h1, h2, ':', m1, m2] =>
      (sign == '+' || sign == '-') && isUpTo 23 [h1, h2] && isUpTo 59 [m1, m2]
    | _ => false

/-- A day, a time of day, or both with a `T` or a space between. -/
def datetime? (word : List Char) : Option Value :=
  let holds := isDate word || isTime word ||
    (isDate (word.take 10) &&
      match word.drop 10 with
      | sep :: time => (sep == 'T' || sep == 't' || sep == ' ') && isZonedTime time
      | [] => false)
  if holds then some (.datetime (String.ofList word)) else none

/-! ### All scalars without quotes -/

/-- The value of a whole word. -/
def value? (word : List Char) : Option Value :=
  if word = "true".toList then some (.boolean true)
  else if word = "false".toList then some (.boolean false)
  else (integer? word).or ((float? word).or (datetime? word))

end Replica.Toml.Scalar
