import Replica.Duration

/-! # Durations between durations

Doubles are compared as the multiples of the smallest one that they are (`units?_mono`), and the nearest
nanoseconds follow that order.  So a double between two that are durations is one as well, and lies
between them (`exists_ofFloat?`). -/

namespace Replica

namespace Duration

open Float.Model (Format UnpackedFloat)
open Float.Model.UnpackedFloat

variable {x y lo hi : Float} {u v a b : Nat}

theorem halvings_eq : halvings = 1074 := by rw [halvings]

/-! ### Nearest nanoseconds -/

theorem roundHalfEven_mono {num num' : Nat} (h : num ≤ num') (den : Nat) :
    roundHalfEven num den ≤ roundHalfEven num' den := by
  have hdiv : num / den ≤ num' / den := Nat.div_le_div_right h
  have hnum := Nat.div_add_mod num den
  have hnum' := Nat.div_add_mod num' den
  rw [roundHalfEven, roundHalfEven]
  rcases Nat.lt_or_eq_of_le hdiv with hlt | heq
  · split <;> split <;> omega
  · rw [heq] at hnum ⊢
    have hmod : num % den ≤ num' % den := by omega
    split <;> split <;> simp only [Nat.compare_eq_lt, Nat.compare_eq_gt, Nat.compare_eq_eq] at * <;> omega

theorem roundHalfEven_mul_right (n : Nat) {den : Nat} (pos : 0 < den) :
    roundHalfEven (n * den) den = n := by
  rw [roundHalfEven, Nat.mul_mod_left, Nat.mul_div_cancel n pos, Nat.compare_eq_lt.2 pos]

theorem nanosOfUnits_mono (h : u ≤ v) : nanosOfUnits u ≤ nanosOfUnits v := by
  rw [nanosOfUnits, nanosOfUnits]
  exact roundHalfEven_mono (Nat.mul_le_mul_right nanosPerSec h) unitsInOne

/-! ### Multiples of the smallest double -/

theorem toNat_one_append (f : BitVec 52) : (1#1 ++ f).toNat = Nat.pow 2 52 + f.toNat := by
  rw [BitVec.toNat_append, ← Nat.shiftLeft_add_eq_or_of_lt f.isLt]
  rfl

/-- A finite double has its mantissa and its exponent in range, and the mantissa is full unless the
exponent is the smallest. -/
theorem unpack_finite {w : Float.Model} {s : Sign} {m : Nat} {e : Int} {pos : 0 < m}
    (h : w.unpack = .finite s m e pos) :
    m < Nat.pow 2 53 ∧ -halvings ≤ e ∧ (Nat.pow 2 52 ≤ m ∨ e = -halvings) := by
  rw [halvings_eq]
  unfold Float.Model.unpack UnpackedFloat.unpack at h
  dsimp only at h
  generalize w.toBits.toBitVec = b at h
  have hmantissa : (@unpackMantissa Format.binary64 b).toNat < Nat.pow 2 52 :=
    (@unpackMantissa Format.binary64 b).isLt
  by_cases hmax : @unpackExponent Format.binary64 b = -1#11
  · rw [if_pos hmax] at h
    by_cases hinfinite : @unpackMantissa Format.binary64 b = 0#52
    · rw [if_pos hinfinite] at h
      cases h
    · rw [if_neg hinfinite] at h
      cases h
  rw [if_neg hmax] at h
  by_cases hleast : @unpackExponent Format.binary64 b = 0#11
  · rw [if_pos hleast] at h
    by_cases hzero : @unpackMantissa Format.binary64 b = 0#52
    · rw [dif_pos hzero] at h
      cases h
    · rw [dif_neg hzero] at h
      cases h
      rw [hleast]
      refine ⟨Nat.lt_trans hmantissa (by decide), ?_, .inr ?_⟩ <;> decide
  · rw [if_neg hleast] at h
    cases h
    have hpos : (@unpackExponent Format.binary64 b).toNat ≠ 0 :=
      fun hzero => hleast (BitVec.eq_of_toNat_eq hzero)
    rw [toNat_one_append]
    refine ⟨?_, ?_, .inl (Nat.le_add_right _ _)⟩
    · show _ < Nat.pow 2 52 + Nat.pow 2 52
      omega
    · show (-1074 : Int) ≤ _ - (1023 + 52)
      omega

theorem units?_eq_some_iff : units? x = some u ↔ (∃ s, x.toModel.unpack = .zero s ∧ u = 0) ∨
    ∃ m e pos, x.toModel.unpack = .finite .positive m e pos ∧
      u = m * Nat.pow 2 (e + halvings).toNat := by
  rw [units?]
  constructor
  · intro h
    rcases hx : x.toModel.unpack with _ | _ | s | ⟨_ | _, m, e, pos⟩ <;> rw [hx] at h
    case zero => exact .inl ⟨s, rfl, (Option.some.inj h).symm⟩
    case finite.positive => exact .inr ⟨m, e, pos, rfl, (Option.some.inj h).symm⟩
    case infinity | notANumber | finite.negative => cases h
  · rintro (⟨s, hx, rfl⟩ | ⟨m, e, pos, hx, rfl⟩) <;> rw [hx]

/-! ### Order -/

theorem le_iff : x ≤ y ↔ (x.toModel.unpack.compare y.toModel.unpack).any (·.isLE) = true := by
  show Float.le x y = true ↔ _
  rw [Float.le]
  show decide (Float.Model.le x.toModel y.toModel = true) = true ↔ _
  rw [decide_eq_true_iff]
  rfl

/-- The larger of two doubles is the larger multiple of the smallest one. -/
theorem scaled_le {m m' : Nat} {e e' : Int} (hm : m < Nat.pow 2 53) (he : -halvings ≤ e)
    (hfull : Nat.pow 2 52 ≤ m' ∨ e' = -halvings) (h : e < e' ∨ e = e' ∧ m ≤ m') :
    m * Nat.pow 2 (e + halvings).toNat ≤ m' * Nat.pow 2 (e' + halvings).toNat := by
  rcases h with hlt | ⟨rfl, hle⟩
  · have hm' : m ≤ m' * 2 := by
      have hpow : Nat.pow 2 53 = Nat.pow 2 52 * 2 := rfl
      omega
    obtain ⟨k, hk⟩ : ∃ k, (e' + halvings).toNat = (e + halvings).toNat + 1 + k :=
      Nat.exists_eq_add_of_le (by omega)
    calc m * Nat.pow 2 (e + halvings).toNat
        ≤ m' * 2 * Nat.pow 2 (e + halvings).toNat := Nat.mul_le_mul_right _ hm'
      _ = m' * Nat.pow 2 ((e + halvings).toNat + 1) := by
          rw [Nat.mul_assoc, Nat.mul_comm 2]
          rfl
      _ ≤ m' * Nat.pow 2 (e' + halvings).toNat :=
          Nat.mul_le_mul_left _ (hk ▸ Nat.pow_le_pow_right (by decide) (Nat.le_add_right _ _))
  · exact Nat.mul_le_mul_right _ hle

theorem units?_mono (hu : units? x = some u) (hv : units? y = some v) (h : x ≤ y) : u ≤ v := by
  rw [le_iff] at h
  obtain ⟨s, hx, rfl⟩ | ⟨m, e, pos, hx, rfl⟩ := units?_eq_some_iff.1 hu
  · exact Nat.zero_le v
  · obtain ⟨s, hy, rfl⟩ | ⟨m', e', pos', hy, rfl⟩ := units?_eq_some_iff.1 hv
    · rw [hx, hy] at h
      cases h
    · obtain ⟨hm, he, -⟩ := unpack_finite hx
      obtain ⟨-, -, hfull⟩ := unpack_finite hy
      rw [hx, hy] at h
      have hcompare : ((compare e e').then (compare m m')).isLE = true := h
      rw [Ordering.isLE_then_iff_or, Int.compare_eq_lt, Int.compare_eq_eq, Nat.isLE_compare] at hcompare
      exact scaled_le hm he hfull hcompare

theorem exists_units? (hlo : units? lo = some a) (hhi : units? hi = some b) (hbelow : lo ≤ x)
    (habove : x ≤ hi) : ∃ u, units? x = some u := by
  rw [le_iff] at hbelow habove
  rcases hx : x.toModel.unpack with (_ | _) | _ | s | ⟨_ | _, m, e, pos⟩
  case zero => exact ⟨0, units?_eq_some_iff.2 (.inl ⟨s, hx, rfl⟩)⟩
  case finite.positive => exact ⟨_, units?_eq_some_iff.2 (.inr ⟨m, e, pos, hx, rfl⟩)⟩
  case infinity.positive =>
    obtain ⟨s, hhi, -⟩ | ⟨m, e, pos, hhi, -⟩ := units?_eq_some_iff.1 hhi <;>
      rw [hx, hhi] at habove <;> cases habove
  case infinity.negative | notANumber | finite.negative =>
    obtain ⟨s, hlo, -⟩ | ⟨m, e, pos, hlo, -⟩ := units?_eq_some_iff.1 hlo <;>
      rw [hx, hlo] at hbelow <;> cases hbelow

theorem ofFloat?_eq_some_iff {d : Duration} : ofFloat? x = some d ↔ ∃ u, units? x = some u ∧
    nanosOfUnits u < secsLimit * nanosPerSec ∧ ⟨nanosOfUnits u⟩ = d := by
  rw [ofFloat?]
  simp only [Option.bind_eq_bind, Option.bind_eq_some_iff, Option.ite_none_right_eq_some,
    Option.some.injEq]

theorem ofFloat?_mono {d e : Duration} (hx : ofFloat? x = some d) (hy : ofFloat? y = some e)
    (h : x ≤ y) : d.nanos ≤ e.nanos := by
  obtain ⟨u, hu, -, rfl⟩ := ofFloat?_eq_some_iff.1 hx
  obtain ⟨v, hv, -, rfl⟩ := ofFloat?_eq_some_iff.1 hy
  exact nanosOfUnits_mono (units?_mono hu hv h)

/-- A double between two that are durations is a duration between the two. -/
theorem exists_ofFloat? {least most : Duration} (hlo : ofFloat? lo = some least)
    (hhi : ofFloat? hi = some most) (hbelow : lo ≤ x) (habove : x ≤ hi) :
    ∃ d, ofFloat? x = some d ∧ least.nanos ≤ d.nanos ∧ d.nanos ≤ most.nanos := by
  obtain ⟨a, ha, -, -⟩ := ofFloat?_eq_some_iff.1 hlo
  obtain ⟨b, hb, hlimit, -⟩ := ofFloat?_eq_some_iff.1 hhi
  obtain ⟨u, hu⟩ := exists_units? ha hb hbelow habove
  have hd : ofFloat? x = some ⟨nanosOfUnits u⟩ := by
    have hle := nanosOfUnits_mono (units?_mono hu hb habove)
    exact ofFloat?_eq_some_iff.2 ⟨u, hu, Nat.lt_of_le_of_lt hle hlimit, rfl⟩
  exact ⟨_, hd, ofFloat?_mono hlo hd hbelow, ofFloat?_mono hd hhi habove⟩

end Duration

end Replica
