import Mathlib.Tactic.Ring
import Replica.Proofs.Duration.Between

/-! # Rounding of doubles

What an operation on doubles gives is shifted to the length of a mantissa and rounded to even.  Only an
upper bound is of interest here, in multiples of the smallest double (`Within`): rounding goes up by one
step at most (`rounded_mul_le`), and not up to `2 ^ 64` from what is nearer to the double before that
(`within_roundWithAccuracy_of_lt`). -/

namespace Replica

namespace Duration

open Float.Model (Format UnpackedFloat totalExponent)
open Float.Model.UnpackedFloat

/-- A number that is not negative and at most so many of the smallest double. -/
inductive Within (bound : Nat) : UnpackedFloat → Prop
  | zero : Within bound (.zero .positive)
  | finite {m j : Nat} (pos : 0 < m) (h : m * 2 ^ j ≤ bound) :
      Within bound (.finite .positive m ((j : Int) - halvings) pos)

variable {bound m j k : Nat} {x : UnpackedFloat} {a : Accuracy}

theorem Within.mono (h : Within bound x) {more : Nat} (hle : bound ≤ more) : Within more x := by
  cases h with
  | zero => exact .zero
  | finite pos h => exact .finite pos (h.trans hle)

theorem two_pow_halvings : 2 ^ halvings = unitsInOne := by
  rw [unitsInOne]
  rfl

theorem two_pow_halvings_add (k : Nat) : 2 ^ (halvings + k) = unitsInOne * 2 ^ k := by
  rw [pow_add, two_pow_halvings]

theorem unitsInOne_pos : 0 < unitsInOne := two_pow_halvings ▸ Nat.two_pow_pos halvings

theorem targetExponent_eq (total : Int) :
    Format.binary64.targetExponent total = max (total - 53) (-halvings) := by
  rw [halvings_eq]
  rfl

/-! ### Shifts -/

theorem shiftRight_mantissa (em : ExtendedMantissa) (k : Nat) :
    (em >>> k).mantissa = em.mantissa / 2 ^ k := by
  induction k with
  | zero => exact (Nat.div_one _).symm
  | succ k ih =>
      show (em >>> k).mantissa / 2 = _
      rw [ih, Nat.div_div_eq_div_mul, pow_succ]

theorem roundedMantissa_le (em : ExtendedMantissa) : em.roundedMantissa ≤ em.mantissa + 1 := by
  obtain ⟨m, round, sticky⟩ := em
  rw [ExtendedMantissa.roundedMantissa]
  cases round <;> cases sticky <;>
    simp only [ExtendedMantissa.accuracy, Accuracy.roundToNearestEven] <;> omega

/-- Rounding goes up by one at most, and not if the first bit that was shifted out is zero. -/
theorem roundedMantissa_shiftRight_succ_le (em : ExtendedMantissa) (k : Nat) :
    2 * (em >>> (k + 1)).roundedMantissa ≤ em.mantissa / 2 ^ k + 1 := by
  have hmantissa := shiftRight_mantissa em k
  have hshift : em >>> (k + 1) = (em >>> k).shiftRightOne := rfl
  rw [hshift, ← hmantissa]
  generalize em >>> k = em'
  obtain ⟨m, round, sticky⟩ := em'
  rw [ExtendedMantissa.shiftRightOne, ExtendedMantissa.roundedMantissa]
  rcases Nat.mod_two_eq_zero_or_one m with h | h
  all_goals
    simp only [h]
    cases h' : (round || sticky) <;> simp [ExtendedMantissa.accuracy, Accuracy.roundToNearestEven] <;> omega

theorem log2_div_lt {m k : Nat} (h : m.log2 ≤ 52 + k) : m / 2 ^ k < 2 ^ 53 := by
  refine (Nat.div_lt_iff_lt_mul (Nat.two_pow_pos k)).2 ?_
  rw [← pow_add]
  exact Nat.lt_of_lt_of_le Nat.lt_log2_self (Nat.pow_le_pow_right (by decide) (by omega))

theorem mantissa_ofMantissaAndAccuracy (m : Nat) (a : Accuracy) :
    (ExtendedMantissa.ofMantissaAndAccuracy m a).mantissa = m := by
  rcases a with _ | _ | _ | _ <;> rfl

theorem shiftToTargetExponent_eq (m j : Nat) (a : Accuracy) :
    shiftToTargetExponent Format.binary64 m ((j : Int) - halvings) a =
      (ExtendedMantissa.ofMantissaAndAccuracy m a >>> (m.log2 - 52),
        ((j + (m.log2 - 52) : Nat) : Int) - halvings) := by
  have hshift : (max (totalExponent m ((j : Int) - halvings) - 53) (-halvings) -
      ((j : Int) - halvings)).toNat = m.log2 - 52 := by
    rw [totalExponent]
    omega
  rw [shiftToTargetExponent, shiftToExponent, targetExponent_eq, hshift]
  congr 1
  push_cast
  omega

/-! ### Rounding -/

/-- The mantissa that is left of another when this is rounded. -/
def rounded (m : Nat) (a : Accuracy) : Nat :=
  (ExtendedMantissa.ofMantissaAndAccuracy m a >>> (m.log2 - 52)).roundedMantissa

/-- A rounded number is within what bounds its rounded mantissa. -/
theorem within_roundWithAccuracy (h : rounded m a * 2 ^ (j + (m.log2 - 52)) ≤ bound) :
    Within bound (roundWithAccuracy Format.binary64 .positive m ((j : Int) - halvings) a) := by
  rw [roundWithAccuracy, shiftToTargetExponent_eq]
  dsimp only
  rw [shiftToTargetExponent_eq, ← rounded]
  dsimp only
  rw [shiftRight_mantissa, mantissa_ofMantissaAndAccuracy]
  by_cases hzero : rounded m a / 2 ^ ((rounded m a).log2 - 52) = 0
  · rw [dif_pos hzero]
    exact .zero
  · rw [dif_neg hzero]
    refine .finite _ (Nat.le_trans ?_ h)
    rw [pow_add _ (j + _), ← mul_assoc, mul_right_comm]
    exact Nat.mul_le_mul_right _ (Nat.div_mul_le_self _ _)

theorem rounded_exact (h : m.log2 ≤ 52) : rounded m .exact = m := by
  rw [rounded, Nat.sub_eq_zero_of_le h]
  rfl

/-- A mantissa that need not be shifted stays as it is. -/
theorem within_roundWithAccuracy_of_log2_le (hlog : m.log2 ≤ 52) (h : m * 2 ^ j ≤ bound) :
    Within bound (roundWithAccuracy Format.binary64 .positive m ((j : Int) - halvings) .exact) := by
  refine within_roundWithAccuracy ?_
  rwa [rounded_exact hlog, Nat.sub_eq_zero_of_le hlog]

/-- Rounding adds less than one step. -/
theorem rounded_mul_le (n t : Nat) (a : Accuracy) :
    rounded n a * 2 ^ (t + (n.log2 - 52)) ≤ n * 2 ^ t + 2 ^ (t + (n.log2 - 52)) := by
  have hround : rounded n a ≤ n / 2 ^ (n.log2 - 52) + 1 := by
    have h := roundedMantissa_le (ExtendedMantissa.ofMantissaAndAccuracy n a >>> (n.log2 - 52))
    rwa [shiftRight_mantissa, mantissa_ofMantissaAndAccuracy] at h
  calc rounded n a * 2 ^ (t + (n.log2 - 52))
      ≤ (n / 2 ^ (n.log2 - 52) + 1) * 2 ^ (t + (n.log2 - 52)) := Nat.mul_le_mul_right _ hround
    _ = n / 2 ^ (n.log2 - 52) * 2 ^ (n.log2 - 52) * 2 ^ t + 2 ^ (t + (n.log2 - 52)) := by
        rw [add_mul, one_mul, add_comm t, pow_add, ← mul_assoc]
    _ ≤ n * 2 ^ t + 2 ^ (t + (n.log2 - 52)) :=
        Nat.add_le_add_right (Nat.mul_le_mul_right _ (Nat.div_mul_le_self _ _)) _

/-- A step is not more than the number, if it is more than the least one. -/
theorem two_pow_step_le {n t c : Nat} (ht : 2 ^ t ≤ c) (hn : n * 2 ^ t ≤ c) :
    2 ^ (t + (n.log2 - 52)) ≤ c := by
  rcases Nat.le_total n.log2 52 with h | h
  · rwa [Nat.sub_eq_zero_of_le h]
  · have hpos : n ≠ 0 := by
      rintro rfl
      simp at h
    calc 2 ^ (t + (n.log2 - 52)) ≤ 2 ^ (n.log2 + t) := Nat.pow_le_pow_right (by decide) (by omega)
      _ = 2 ^ n.log2 * 2 ^ t := pow_add _ _ _
      _ ≤ n * 2 ^ t := Nat.mul_le_mul_right _ (Nat.log2_self_le hpos)
      _ ≤ c := hn

/-! ### Just below the limit -/

/-- A multiple of a double that is below a bound by half a step is below it by a whole one. -/
theorem le_of_lt_of_log2_le (hlog : m.log2 ≤ 52)
    (h : m * 2 ^ j < (2 ^ 64 - 2 ^ 10) * unitsInOne) :
    m * 2 ^ j ≤ (2 ^ 64 - 2 ^ 11) * unitsInOne := by
  have hm : m < 2 ^ 53 := by simpa using log2_div_lt (k := 0) hlog
  rcases Nat.lt_or_ge j (halvings + 11) with hj | hj
  · calc m * 2 ^ j ≤ 2 ^ 53 * 2 ^ (halvings + 10) :=
          Nat.mul_le_mul hm.le (Nat.pow_le_pow_right (by decide) (Nat.le_of_lt_succ hj))
      _ = 2 ^ 63 * unitsInOne := by rw [two_pow_halvings_add]; ring
      _ ≤ (2 ^ 64 - 2 ^ 11) * unitsInOne := Nat.mul_le_mul_right _ (by decide)
  · obtain ⟨i, rfl⟩ := Nat.exists_eq_add_of_le hj
    have heq : m * 2 ^ (halvings + 11 + i) = m * 2 ^ i * 2 ^ 11 * unitsInOne := by
      rw [add_assoc, two_pow_halvings_add, pow_add]
      ring
    rw [heq] at h ⊢
    have hlt := Nat.lt_of_mul_lt_mul_right h
    generalize m * 2 ^ i = n at hlt ⊢
    exact Nat.mul_le_mul_right _ (by omega)

/-- Half a step below the limit is not enough for a mantissa to be rounded up to the limit. -/
theorem le_of_halves {n r q : Nat} (hfull : 2 ^ 53 ≤ n) (hn : n < 2 ^ 54) (hr : 2 * r ≤ n + 1)
    (h : n * 2 ^ q < (2 ^ 64 - 2 ^ 10) * unitsInOne) :
    r * 2 ^ (q + 1) ≤ (2 ^ 64 - 2 ^ 11) * unitsInOne := by
  rcases Nat.lt_or_ge q (halvings + 10) with hq | hq
  · calc r * 2 ^ (q + 1) ≤ 2 ^ 53 * 2 ^ (halvings + 10) :=
          Nat.mul_le_mul (by omega) (Nat.pow_le_pow_right (by decide) hq)
      _ = 2 ^ 63 * unitsInOne := by rw [two_pow_halvings_add]; ring
      _ ≤ (2 ^ 64 - 2 ^ 11) * unitsInOne := Nat.mul_le_mul_right _ (by decide)
  · obtain ⟨i, rfl⟩ := Nat.exists_eq_add_of_le hq
    have heq : n * 2 ^ (halvings + 10 + i) = n * 2 ^ i * 2 ^ 10 * unitsInOne := by
      rw [add_assoc, two_pow_halvings_add, pow_add]
      ring
    rw [heq] at h
    have hlt := Nat.lt_of_mul_lt_mul_right h
    cases i with
    | zero =>
        calc r * 2 ^ (halvings + 11) = r * 2 ^ 11 * unitsInOne := by rw [two_pow_halvings_add]; ring
          _ ≤ (2 ^ 64 - 2 ^ 11) * unitsInOne := Nat.mul_le_mul_right _ (by omega)
    | succ i =>
        have hdouble : n * 2 ≤ n * 2 ^ (i + 1) :=
          Nat.mul_le_mul_left n (Nat.le_self_pow (Nat.succ_ne_zero i) 2)
        generalize n * 2 ^ (i + 1) = w at hlt hdouble
        omega

theorem two_pow_le_of_log2 {k : Nat} (h : m.log2 = 52 + (k + 1)) :
    2 ^ 53 ≤ m / 2 ^ k ∧ m / 2 ^ k < 2 ^ 54 := by
  have hm : m ≠ 0 := by
    rintro rfl
    simp at h
  rw [Nat.le_div_iff_mul_le (Nat.two_pow_pos k), Nat.div_lt_iff_lt_mul (Nat.two_pow_pos k),
    ← pow_add, ← pow_add, ← Nat.le_log2 hm, ← Nat.log2_lt hm]
  omega

/-- What is nearer to the largest double below `2 ^ 64` than to `2 ^ 64` is not rounded up to that. -/
theorem within_roundWithAccuracy_of_lt (h : m * 2 ^ j < (2 ^ 64 - 2 ^ 10) * unitsInOne) :
    Within ((2 ^ 64 - 2 ^ 11) * unitsInOne)
      (roundWithAccuracy Format.binary64 .positive m ((j : Int) - halvings) .exact) := by
  by_cases hlog : m.log2 ≤ 52
  · exact within_roundWithAccuracy_of_log2_le hlog (le_of_lt_of_log2_le hlog h)
  · obtain ⟨k, hk⟩ : ∃ k, m.log2 = 52 + (k + 1) := ⟨m.log2 - 53, by omega⟩
    obtain ⟨hfull, hn⟩ := two_pow_le_of_log2 hk
    have hround : 2 * rounded m .exact ≤ m / 2 ^ k + 1 := by
      rw [rounded, hk, Nat.add_sub_cancel_left]
      exact roundedMantissa_shiftRight_succ_le _ k
    have hbelow : m / 2 ^ k * 2 ^ (j + k) < (2 ^ 64 - 2 ^ 10) * unitsInOne := by
      refine Nat.lt_of_le_of_lt ?_ h
      rw [add_comm, pow_add, ← mul_assoc]
      exact Nat.mul_le_mul_right _ (Nat.div_mul_le_self _ _)
    refine within_roundWithAccuracy ?_
    rw [hk, Nat.add_sub_cancel_left]
    exact le_of_halves hfull hn hround hbelow

end Duration

end Replica
