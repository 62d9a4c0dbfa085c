/-!
# Hexadecimal digits

Numbers in base sixteen, as escapes in quoted texts write and read them.
-/

namespace Replica.Text

/-- The lower-case digits of a number, none for padding. -/
def hexDigits (n : Nat) : List Char := Nat.toDigits 16 n

/-- The upper-case digits of a number, with zeros in front up to `width`. -/
def paddedHexDigits (width n : Nat) : List Char :=
  let ds := (hexDigits n).map Char.toUpper
  List.replicate (width - ds.length) '0' ++ ds

/-- The value of a digit of either case. -/
def hexDigit? (c : Char) : Option Nat :=
  if c.isDigit then some (c.toNat - '0'.toNat)
  else if 'a' ≤ c ∧ c ≤ 'f' then some (c.toNat - 'a'.toNat + 10)
  else if 'A' ≤ c ∧ c ≤ 'F' then some (c.toNat - 'A'.toNat + 10)
  else none

/-- The value of a run of digits, the most significant first. -/
def hexValue? (cs : List Char) : Option Nat :=
  cs.foldlM (fun n c => (hexDigit? c).map (16 * n + ·)) 0

end Replica.Text
