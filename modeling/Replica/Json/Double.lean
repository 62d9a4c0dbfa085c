/-!
# Doubles as decimal texts

* A literal is read into a significand of 64 bits, as many of its leading digits as fit, and a
  power of ten, which then multiplies or divides the significand in double arithmetic
  (`scaledByTen`).  A literal too large for a double gives infinity.
* A double is written with the fewest digits that lie nearer to it than to any other double
  (`Decimal.shortest`), in positional notation if its magnitude is moderate and with an exponent
  otherwise.  A whole double keeps its `.0`.
-/

namespace Replica

/-! ### Reading -/

/-- The largest significand. -/
def maxSignificand : Nat := Nat.pow 2 64 - 1

/-- Appends decimal digits to a significand until the next one would not fit; with the digits left
over. -/
def gatherDigits (significand : Nat) : List Nat → Nat × List Nat
  | [] => (significand, [])
  | d :: ds =>
    if maxSignificand < significand * 10 + d then (significand, d :: ds)
    else gatherDigits (significand * 10 + d) ds

/-- A power of ten as a double, for exponents up to 308. -/
def powerOfTen (e : Nat) : Float := Float.ofScientific 1 false e

/-- `significand · 10 ^ e` with a rounding at each step; divisions by more than the largest power of
ten are made in two steps. -/
def scaledByTen (significand : Nat) (e : Int) : Float :=
  let f := (UInt64.ofNat significand).toFloat
  if 0 ≤ e then
    if e ≤ 308 then f * powerOfTen e.toNat else if significand = 0 then f else f / 0
  else if -308 ≤ e then f / powerOfTen e.natAbs
  else if -616 ≤ e then f / powerOfTen 308 / powerOfTen (e.natAbs - 308)
  else 0

/-- The double of a literal with a fraction, an exponent or too many digits. -/
def doubleOfDigits (negative : Bool) (whole fraction : List Nat) (e : Int) : Float :=
  let (s, left) := gatherDigits 0 whole
  let (s', left') := gatherDigits s fraction
  let f := scaledByTen s' (e + left.length - (fraction.length - left'.length : Nat))
  if negative then -f else f

/-! ### Writing -/

/-- A positive decimal number `digits · 10 ^ exponent`. -/
structure Decimal where
  digits : Nat
  exponent : Int

namespace Decimal

/-- The greatest multiple of `10 ^ p` that is at most `num / den`, counted in such multiples. -/
def floorAt (num den : Nat) (p : Int) : Nat :=
  if 0 ≤ p then num / (den * Nat.pow 10 p.toNat) else num * Nat.pow 10 p.natAbs / den

/-- Compares `d · 10 ^ p` with `num / den`. -/
def compareAt (d : Nat) (p : Int) (num den : Nat) : Ordering :=
  if 0 ≤ p then compare (d * Nat.pow 10 p.toNat * den) num
  else compare (d * den) (num * Nat.pow 10 p.natAbs)

/-- The numbers that round to `m · 2 ^ q`: all between the two bounds, and the bounds themselves if
`closed`.  Every number is a multiple of one fourth of the unit. -/
structure Interval where
  num : Nat
  low : Nat
  high : Nat
  den : Nat
  closed : Bool

/-- The interval of the double `m · 2 ^ q`.  Below a power of two the neighbour is half as far. -/
def interval (m : Nat) (q : Int) (halfGap : Bool) : Interval :=
  let up := if 0 ≤ q then Nat.pow 2 q.toNat else 1
  let down := if 0 ≤ q then 1 else Nat.pow 2 q.natAbs
  { num := 4 * m * up
    low := (4 * m - if halfGap then 1 else 2) * up
    high := (4 * m + 2) * up
    den := 4 * down
    closed := m % 2 == 0 }

/-- Whether `d · 10 ^ p` rounds to the double of the interval. -/
def Interval.holds (i : Interval) (d : Nat) (p : Int) : Bool :=
  let above := compareAt d p i.low i.den
  let below := compareAt d p i.high i.den
  (above == .gt || i.closed && above == .eq) && (below == .lt || i.closed && below == .eq)

/-- Of the two neighbours of the double on the grid of step `10 ^ p`, the one that rounds to it; of
two the nearer, at equal distance the even one. -/
def Interval.pick? (i : Interval) (p : Int) : Option Nat :=
  let d := floorAt i.num i.den p
  let lower := d != 0 && i.holds d p
  let upper := i.holds (d + 1) p
  if lower && upper then
    match compareAt (2 * d + 1) p (2 * i.num) i.den with
    | .lt => some (d + 1)
    | .gt => some d
    | .eq => some (if d % 2 == 0 then d else d + 1)
  else if lower then some d
  else if upper then some (d + 1)
  else none

/-- The digits on the coarsest grid, from step `10 ^ p` on down, that has a point of the
interval. -/
def Interval.coarsest (i : Interval) : Nat → Int → Decimal
  | 0, p => ⟨floorAt i.num i.den p, p⟩
  | fuel + 1, p =>
    match i.pick? p with
    | some d => ⟨d, p⟩
    | none => i.coarsest fuel (p - 1)

/-- The number of decimal digits before the point. -/
def magnitude (i : Interval) : Int :=
  let n := floorAt i.num i.den 0
  if n ≠ 0 then (Nat.toDigits 10 n).length
  else 1 - ((List.range 330).takeWhile fun (k : Nat) => floorAt i.num i.den (-(k : Int)) == 0).length

/-- The shortest decimal that rounds to `m · 2 ^ q`, for positive `m`. -/
def shortest (m : Nat) (q : Int) (halfGap : Bool) : Decimal :=
  let i := interval m q halfGap
  i.coarsest 20 (magnitude i)

/-- The decimal without trailing zeros in its digits. -/
def strip : Nat → Decimal → Decimal
  | 0, x => x
  | fuel + 1, x =>
    if x.digits ≠ 0 ∧ x.digits % 10 = 0 then strip fuel ⟨x.digits / 10, x.exponent + 1⟩ else x

/-- Digits with a point after the first `k`. -/
def pointAfter (k : Nat) (ds : List Char) : List Char := ds.take k ++ '.' :: ds.drop k

/-- The text: positional from 1e-5 to below 1e16, with an exponent outside. -/
def text (x : Decimal) : List Char :=
  let ds := Nat.toDigits 10 x.digits
  let point : Int := ds.length + x.exponent
  if 0 ≤ x.exponent ∧ point ≤ 16 then ds ++ List.replicate x.exponent.toNat '0' ++ ['.', '0']
  else if 0 < point ∧ point ≤ 16 then pointAfter point.toNat ds
  else if -5 < point ∧ point ≤ 0 then '0' :: '.' :: List.replicate point.natAbs '0' ++ ds
  else
    (if ds.length = 1 then ds else pointAfter 1 ds) ++ 'e' :: (toString (point - 1)).toList

end Decimal

/-- The text of a finite double given by its bits. -/
def doubleText (bits : UInt64) : String :=
  let b := bits.toNat
  let fraction : Nat := b % Nat.pow 2 52
  let biased : Nat := b / Nat.pow 2 52 % Nat.pow 2 11
  let sign := if b / Nat.pow 2 63 = 1 then ['-'] else []
  let body :=
    if biased = 0 then
      if fraction = 0 then ['0', '.', '0']
      else ((Decimal.shortest fraction (-1074) false).strip 20).text
    else
      ((Decimal.shortest (Nat.pow 2 52 + fraction) ((biased : Int) - 1075)
        (fraction == 0 && biased != 1)).strip 20).text
  String.ofList (sign ++ body)

end Replica
