import Mathlib.Data.List.Basic
import Replica.Toml.Reader

/-!
# Whole numbers that are written are read back

A number is written as its decimal digits.  These have no leading zero and no mark of another base,
and no day of the calendar looks like them; so `scalar_toString` finds the number again, if it fits
into 64 bits with sign.
-/

namespace Replica.Toml

/-! ### Decimal digits -/

theorem head?_toDigits_ne {n : Nat} (h : 0 < n) : (Nat.toDigits 10 n).head? ≠ some '0' := by
  induction n using Nat.strongRecOn with
  | ind n ih =>
      by_cases hsmall : n < 10
      · have hdigit : ∀ d < 10, 0 < d → [d.digitChar].head? ≠ some '0' := by decide
        rw [Nat.toDigits_of_lt_base hsmall]
        exact hdigit n hsmall h
      · have hsplit := Nat.toDigits_of_base_le (by decide : 1 < 10) (Nat.le_of_not_lt hsmall)
        rw [hsplit, List.head?_append_of_ne_nil _ Nat.toDigits_ne_nil]
        exact ih (n / 10) (by omega) (by omega)

/-- A word of decimal digits as a number is written with them. -/
structure Decimal (cs : List Char) : Prop where
  isDigit : ∀ c ∈ cs, c.isDigit = true
  ne_nil : cs ≠ []
  /-- Zero stands alone. -/
  leads : 1 < cs.length → cs.head? ≠ some '0'

theorem decimal_toDigits (n : Nat) : Decimal (Nat.toDigits 10 n) where
  isDigit _ hc := Nat.isDigit_of_mem_toDigits (by decide) (by decide) hc
  ne_nil := Nat.toDigits_ne_nil
  leads hlong := by
    refine head?_toDigits_ne (Nat.pos_of_ne_zero ?_)
    rintro rfl
    exact absurd hlong (by decide)

namespace Scalar

/-! ### Words of digits -/

variable {cs : List Char}

/-- Digits have no underscores to drop. -/
theorem ungroup?_of_isDigit (h : ∀ c ∈ cs, c.isDigit = true) (hne : cs ≠ []) :
    ungroup? Char.isDigit cs = some cs := by
  induction cs with
  | nil => exact absurd rfl hne
  | cons c cs ih =>
      obtain ⟨hc, hcs⟩ := List.forall_mem_cons.1 h
      cases cs with
      | nil => simp [ungroup?, hc]
      | cons d ds =>
          have hd : d ≠ '_' := by
            rintro rfl
            exact absurd (hcs '_' List.mem_cons_self) (by decide)
          rw [ungroup?]
          · rw [if_pos hc, ih hcs (List.cons_ne_nil d ds)]
            rfl
          · simp
          · rintro ds' heq
            exact hd (List.cons.inj heq).1

theorem decimal?_eq (h : Decimal cs) : decimal? cs = some cs := by
  simpa [decimal?, ungroup?_of_isDigit h.isDigit h.ne_nil] using h.leads

/-- In base ten, digits stand for what they are commonly taken for. -/
theorem ofDigits_ten (h : ∀ c ∈ cs, c.isDigit = true) (n : Nat) :
    cs.foldl (fun n c => 10 * n + (Text.hexDigit? c).getD 0) n = Nat.ofDigitChars 10 cs n := by
  induction cs generalizing n with
  | nil => rfl
  | cons c cs ih =>
      obtain ⟨hc, hcs⟩ := List.forall_mem_cons.1 h
      have hvalue : (Text.hexDigit? c).getD 0 = c.toNat - '0'.toNat := by simp [Text.hexDigit?, hc]
      rw [List.foldl_cons, ih hcs, hvalue, Nat.ofDigitChars_cons]

theorem ofDigits_toDigits (n : Nat) : ofDigits 10 (Nat.toDigits 10 n) = n :=
  (ofDigits_ten (decimal_toDigits n).isDigit 0).trans Nat.ofDigitChars_ten_toDigits

theorem bind_decimal? {α : Type} (h : Decimal cs) (f : List Char → Option α) :
    (decimal? cs >>= f) = f cs := by
  rw [decimal?_eq h]
  rfl

theorem not_mem_of_isDigit (h : ∀ c ∈ cs, c.isDigit = true) {a : Char} (ha : a.isDigit = false) :
    a ∉ cs := by
  intro hmem
  rw [h a hmem] at ha
  cases ha

theorem unsigned_of_isDigit (h : ∀ c ∈ cs, c.isDigit = true) : unsigned cs = (false, cs) := by
  unfold unsigned
  split
  · exact absurd List.mem_cons_self (not_mem_of_isDigit h (a := '-') rfl)
  · exact absurd List.mem_cons_self (not_mem_of_isDigit h (a := '+') rfl)
  · rfl

/-- Digits have neither a mark of a base nor a sign. -/
theorem integer?_eq (h : Decimal cs) : integer? cs = inRange? (ofDigits 10 cs) := by
  have hmark : ∀ a : Char, a.isDigit = false → ∀ c ds, cs ≠ c :: a :: ds := by
    rintro a ha c ds rfl
    exact not_mem_of_isDigit h.isDigit ha (by simp)
  rw [integer?]
  · rw [unsigned_of_isDigit h.isDigit]
    refine (bind_decimal? h _).trans ?_
    simp only [if_neg Bool.false_ne_true]
  · exact hmark 'x' rfl '0'
  · exact hmark 'o' rfl '0'
  · exact hmark 'b' rfl '0'

theorem isDate_eq_false (h : ∀ c ∈ cs, c.isDigit = true) : isDate cs = false := by
  unfold isDate
  split
  · exact absurd (h '-' (by simp)) (by decide)
  · rfl

theorem value?_toDigits {n : Nat} (h : (n : Int) < integerLimit) :
    value? (Nat.toDigits 10 n) = some (.integer n) := by
  have hdecimal := decimal_toDigits n
  have hrange : inRange? n = some (.integer n) := if_pos ⟨by omega, h⟩
  have hword : ∀ word : List Char, 'e' ∈ word → Nat.toDigits 10 n ≠ word := by
    rintro word hletter rfl
    cases hdecimal.isDigit 'e' hletter
  rw [value?, if_neg (hword _ (by decide)), if_neg (hword _ (by decide)), integer?_eq hdecimal,
    ofDigits_toDigits, hrange]
  rfl

end Scalar

end Replica.Toml
