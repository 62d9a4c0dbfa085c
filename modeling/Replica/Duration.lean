/-!
# Durations

A duration is a whole number of nanoseconds.  As a double it is a number of seconds, and a double of
seconds becomes the nearest whole number of nanoseconds, a half going to the even neighbour.
-/

namespace Replica

/-- A span of time in nanoseconds. -/
structure Duration where
  nanos : Nat
  deriving DecidableEq, Inhabited

namespace Duration

theorem nanos_inj {a b : Duration} : a.nanos = b.nanos ↔ a = b :=
  ⟨fun h => congrArg mk h, congrArg nanos⟩

/-- Nanoseconds in a second. -/
def nanosPerSec : Nat := 1000000000

/-- The span of whole seconds and further nanoseconds. -/
def ofParts (secs nanos : Nat) : Duration := ⟨secs * nanosPerSec + nanos⟩

/-- The span of whole seconds. -/
def ofSecs (n : Nat) : Duration := ofParts n 0

/-- The span of whole milliseconds. -/
def ofMillis (n : Nat) : Duration := ⟨n * 1000000⟩

/-- The whole seconds. -/
def secs (d : Duration) : Nat := d.nanos / nanosPerSec

/-- The nanoseconds beyond the whole seconds. -/
def subsecNanos (d : Duration) : Nat := d.nanos % nanosPerSec

/-- The milliseconds that have to pass until the span is over. -/
def ceilMillis (d : Duration) : Nat := (d.nanos + 999999) / 1000000

/-- One more than the largest number of seconds. -/
def secsLimit : Nat := Nat.pow 2 64

/-! ### Seconds as doubles -/

/-- The seconds as a double: whole seconds plus the fraction, each rounded. -/
def toFloat (d : Duration) : Float :=
  (UInt64.ofNat d.secs).toFloat
    + (UInt64.ofNat d.subsecNanos).toFloat / (UInt64.ofNat nanosPerSec).toFloat

/-- `num / den` to the nearest whole number, a half to the even neighbour. -/
def roundHalfEven (num den : Nat) : Nat :=
  let q := num / den
  match compare (2 * (num % den)) den with
  | .lt => q
  | .gt => q + 1
  | .eq => q + q % 2

/-- How often one is halved to give the smallest positive double. -/
@[irreducible]
def halvings : Nat := 1074

/-- How many of the smallest positive double are one. -/
@[irreducible]
def unitsInOne : Nat := Nat.pow 2 halvings

/-- A double as a multiple of the smallest positive one; `none` for a number that is negative or not
finite. -/
def units? (f : Float) : Option Nat :=
  match f.toModel.unpack with
  | .zero _ => some 0
  | .finite .positive m e _ => some (m * Nat.pow 2 (e + halvings).toNat)
  | _ => none

/-- The nanoseconds nearest to a multiple of the smallest positive double, in seconds. -/
def nanosOfUnits (u : Nat) : Nat := roundHalfEven (u * nanosPerSec) unitsInOne

/-- The span nearest to a number of seconds; `none` for a number that is negative, not finite, or
from `secsLimit` on. -/
def ofFloat? (f : Float) : Option Duration := do
  let u ← units? f
  if nanosOfUnits u < secsLimit * nanosPerSec then some ⟨nanosOfUnits u⟩ else none

end Duration

end Replica
