import Replica.Proofs.Duration.Rounding

/-! # Durations that are doubles of seconds

A duration becomes a double by a conversion, a division and an addition (`Duration.toFloat`), each of
which is rounded.  Up to half a step below `secsLimit` seconds this stays below the limit
(`within_toFloat`), and a duration can be made of the double again (`exists_ofFloat?_toFloat`). -/

namespace Replica

namespace Duration

open Float.Model (Format UnpackedFloat totalExponent)
open Float.Model.UnpackedFloat

variable {bound m j n : Nat} {x y : UnpackedFloat}

/-! ### Rounding to full length -/

/-- A number that is brought to full length keeps its value. -/
theorem round_eq (m j : Nat) : ∃ i s, i + s = j ∧ s ≤ 52 - m.log2 ∧
    UnpackedFloat.round Format.binary64 .positive m ((j : Int) - halvings) =
      roundWithAccuracy Format.binary64 .positive (m * 2 ^ s) ((i : Int) - halvings) .exact := by
  have hshift : ((j : Int) - halvings -
      max (totalExponent m ((j : Int) - halvings) - 53) (-halvings)).toNat = min (52 - m.log2) j := by
    rw [totalExponent]
    omega
  refine ⟨j - min (52 - m.log2) j, min (52 - m.log2) j, by omega, by omega, ?_⟩
  rw [UnpackedFloat.round, targetExponent_eq, decreaseExponent, hshift, Nat.shiftLeft_eq]
  have hexponent : (j : Int) - halvings - (min (52 - m.log2) j : Nat) =
      ((j - min (52 - m.log2) j : Nat) : Int) - halvings := by omega
  rw [hexponent]

theorem within_round_of_lt (h : m * 2 ^ j < (2 ^ 64 - 2 ^ 10) * unitsInOne) :
    Within ((2 ^ 64 - 2 ^ 11) * unitsInOne)
      (UnpackedFloat.round Format.binary64 .positive m ((j : Int) - halvings)) := by
  obtain ⟨i, s, rfl, -, heq⟩ := round_eq m j
  rw [heq]
  refine within_roundWithAccuracy_of_lt ?_
  rwa [mul_assoc, ← pow_add, add_comm s]

theorem within_round_of_log2_le (hlog : m.log2 ≤ 52) (h : m * 2 ^ j ≤ bound) :
    Within bound (UnpackedFloat.round Format.binary64 .positive m ((j : Int) - halvings)) := by
  obtain ⟨i, s, rfl, hs, heq⟩ := round_eq m j
  rw [heq]
  refine within_roundWithAccuracy_of_log2_le ?_ ?_
  · have hlt : m * 2 ^ s < 2 ^ 53 := by
      calc m * 2 ^ s < 2 ^ (m.log2 + 1) * 2 ^ s :=
            Nat.mul_lt_mul_of_pos_right Nat.lt_log2_self (Nat.two_pow_pos s)
        _ = 2 ^ (m.log2 + 1 + s) := (pow_add _ _ _).symm
        _ ≤ 2 ^ 53 := Nat.pow_le_pow_right (by decide) (by omega)
    by_cases hzero : m * 2 ^ s = 0
    · rw [hzero]
      decide
    · exact Nat.le_of_lt_succ ((Nat.log2_lt hzero).2 hlt)
  · rwa [mul_assoc, ← pow_add, add_comm s]

/-! ### Whole numbers -/

theorem normalize_natCast {n : Nat} (pos : 0 < n) (e : Int) (s : Sign) :
    UnpackedFloat.normalize Format.binary64 n e s = UnpackedFloat.round Format.binary64 .positive n e := by
  have hpos : compare (n : Int) 0 = .gt := by
    rw [compare_gt_iff_gt]
    exact Int.natCast_pos.2 pos
  rw [UnpackedFloat.normalize, hpos]
  rfl

theorem ofNat_eq {n : Nat} (pos : 0 < n) : UnpackedFloat.ofNat Format.binary64 n =
    UnpackedFloat.round Format.binary64 .positive n ((halvings : Int) - halvings) := by
  rw [UnpackedFloat.ofNat, UnpackedFloat.ofInt, normalize_natCast pos, Int.sub_self]

theorem within_ofNat_of_lt {n : Nat} (h : n < 2 ^ 64 - 2 ^ 10) :
    Within ((2 ^ 64 - 2 ^ 11) * unitsInOne) (UnpackedFloat.ofNat Format.binary64 n) := by
  rcases Nat.eq_zero_or_pos n with rfl | hn
  · exact .zero
  · rw [ofNat_eq hn]
    refine within_round_of_lt ?_
    rw [two_pow_halvings]
    exact Nat.mul_lt_mul_of_pos_right h unitsInOne_pos

theorem within_ofNat_of_log2_le {n : Nat} (hlog : n.log2 ≤ 52) :
    Within (n * unitsInOne) (UnpackedFloat.ofNat Format.binary64 n) := by
  rcases Nat.eq_zero_or_pos n with rfl | hn
  · exact .zero
  · rw [ofNat_eq hn]
    exact within_round_of_log2_le hlog (two_pow_halvings ▸ le_rfl)

/-! ### Packing -/

theorem unpackSign_packComponents (s : Sign) (e : BitVec 11) (f : BitVec 52) :
    unpackSign (packComponents Format.binary64 s e f) = s.toBitVec := by
  show (s.toBitVec ++ e ++ f).extractLsb' 63 1 = s.toBitVec
  rw [BitVec.extractLsb'_append_eq_of_le (by decide),
    BitVec.extractLsb'_append_eq_of_le (by decide)]
  cases s <;> rfl

theorem finite_congr {s s' : Sign} {e e' : Int} {pos : 0 < m} {pos' : 0 < n} (hs : s = s')
    (hm : m = n) (he : e = e') : UnpackedFloat.finite s m e pos = .finite s' n e' pos' := by
  subst hs hm he
  rfl

/-- What a full mantissa and its exponent are packed into stands for the same number. -/
theorem unpack_packComponents_full (hlow : 2 ^ 52 ≤ m) (hm : m < 2 ^ 53) (hj : j < 2046)
    (pos : 0 < m) :
    unpack Format.binary64 (packComponents Format.binary64 .positive (BitVec.ofNat 11 (j + 1))
      (BitVec.ofNat 52 m)) = .finite .positive m ((j : Int) - halvings) pos := by
  have hsign := unpackSign_packComponents .positive (BitVec.ofNat 11 (j + 1)) (BitVec.ofNat 52 m)
  have hexponent := @unpackExponent_packComponents Format.binary64 .positive
    (BitVec.ofNat 11 (j + 1)) (BitVec.ofNat 52 m)
  have hmantissa := @unpackMantissa_packComponents Format.binary64 .positive
    (BitVec.ofNat 11 (j + 1)) (BitVec.ofNat 52 m)
  generalize packComponents Format.binary64 .positive (BitVec.ofNat 11 (j + 1))
    (BitVec.ofNat 52 m) = b at hsign hexponent hmantissa
  have hbits : (unpackExponent b).toNat = j + 1 := by
    rw [hexponent, BitVec.toNat_ofNat]
    show (j + 1) % 2048 = j + 1
    omega
  have hmax : unpackExponent b ≠ -1#11 := fun h => by
    have hbound : (unpackExponent b).toNat = 2047 := congrArg BitVec.toNat h
    omega
  have hzero : unpackExponent b ≠ 0#11 := fun h => by
    have hbound : (unpackExponent b).toNat = 0 := congrArg BitVec.toNat h
    omega
  unfold unpack
  dsimp only
  rw [if_neg hmax, if_neg hzero]
  apply finite_congr
  · rw [hsign]
    rfl
  · rw [toNat_one_append, hmantissa, BitVec.toNat_ofNat]
    show 2 ^ 52 + m % 2 ^ 52 = m
    omega
  · rw [hbits, halvings_eq]
    show ((j + 1 : Nat) : Int) - (1023 + 52) = _
    omega

/-- What another mantissa is packed into stands for a number that is not larger. -/
theorem within_unpack_packComponents_zero (h : m ≤ bound) :
    Within bound (unpack Format.binary64
      (packComponents Format.binary64 .positive 0#11 (BitVec.ofNat 52 m))) := by
  have hsign := unpackSign_packComponents .positive 0#11 (BitVec.ofNat 52 m)
  have hexponent := @unpackExponent_packComponents Format.binary64 .positive 0#11 (BitVec.ofNat 52 m)
  have hmantissa := @unpackMantissa_packComponents Format.binary64 .positive 0#11 (BitVec.ofNat 52 m)
  generalize packComponents Format.binary64 .positive 0#11 (BitVec.ofNat 52 m) = b
    at hsign hexponent hmantissa
  have hm : (unpackMantissa b).toNat ≤ bound := by
    rw [hmantissa, BitVec.toNat_ofNat]
    exact (Nat.mod_le _ _).trans h
  have hleast : ((0#11).toNat : Int) - (Format.binary64.exponentBias + (52 : Nat)) + 1 =
      ((0 : Nat) : Int) - halvings := by
    rw [halvings_eq]
    rfl
  unfold unpack
  dsimp only
  rw [if_neg (by rw [hexponent]; decide), if_pos hexponent, hsign, hexponent]
  by_cases hzero : unpackMantissa b = 0#52
  · rw [dif_pos hzero]
    exact .zero
  · rw [dif_neg hzero, hleast]
    exact .finite _ (by rwa [pow_zero, mul_one])

theorem Within.unpack_pack (h : Within bound x) (hbound : bound ≤ 2 ^ 64 * unitsInOne) :
    Within bound (unpack Format.binary64 (pack Format.binary64 x)) := by
  cases h with
  | zero => exact .zero
  | @finite m j pos h =>
      have hbias : ((j : Int) - halvings + Format.binary64.exponentBias + (52 : Nat)).toNat =
          j + 1 := by
        rw [halvings_eq]
        show ((j : Int) - 1074 + 1023 + 52).toNat = _
        omega
      have hj : j ≤ halvings + 64 := by
        refine (Nat.pow_le_pow_iff_right (by decide : 1 < 2)).1 ?_
        calc 2 ^ j ≤ m * 2 ^ j := Nat.le_mul_of_pos_left _ pos
          _ ≤ 2 ^ 64 * unitsInOne := h.trans hbound
          _ = 2 ^ (halvings + 64) := by rw [two_pow_halvings_add, mul_comm]
      rw [halvings_eq] at hj
      unfold pack
      dsimp only
      rw [hbias, if_neg (by show ¬ 2048 ≤ j + 1 + 1; omega)]
      split
      · rename_i hlog
        have hfull : m.log2 = 52 := Nat.succ.inj hlog
        obtain ⟨hlow, hhigh⟩ := (Nat.log2_eq_iff (Nat.ne_of_gt pos)).1 hfull
        rw [unpack_packComponents_full hlow hhigh (by omega) pos]
        exact .finite pos h
      · exact within_unpack_packComponents_zero
          ((Nat.le_mul_of_pos_right m (Nat.two_pow_pos j)).trans h)

/-! ### Sums and quotients -/

/-- A sum is taken at the smaller exponent. -/
theorem add_finite {e e' t : Int} (pos : 0 < m) (pos' : 0 < n) (ht : min e e' = t) :
    UnpackedFloat.add Format.binary64 (.finite .positive m e pos) (.finite .positive n e' pos') =
      UnpackedFloat.normalize Format.binary64
        ((m <<< (e - t).toNat : Nat) + (n <<< (e' - t).toNat : Nat)) t .positive := by
  subst ht
  rfl

/-- A quotient is taken at an exponent that leaves it enough digits. -/
theorem div_finite {e e' t : Int} (pos : 0 < m) (pos' : 0 < n)
    (ht : min (e - e') (Format.binary64.targetExponent (totalExponent m e - totalExponent n e')) = t) :
    UnpackedFloat.div Format.binary64 (.finite .positive m e pos) (.finite .positive n e' pos') =
      roundWithAccuracy Format.binary64 .positive (m <<< (e - e' - t).toNat / n) t
        (accuracyOfFraction (m <<< (e - e' - t).toNat % n) n) := by
  subst ht
  rfl

theorem mul_two_pow_sub {i : Nat} (h : i ≤ j) : m * 2 ^ (j - i) * 2 ^ i = m * 2 ^ j := by
  rw [mul_assoc, ← pow_add, Nat.sub_add_cancel h]

/-- A sum that is nearer to the largest double below `2 ^ 64` than to `2 ^ 64`. -/
theorem Within.add {more : Nat} (hx : Within bound x) (hy : Within more y)
    (hbound : bound ≤ (2 ^ 64 - 2 ^ 11) * unitsInOne) (hmore : more ≤ (2 ^ 64 - 2 ^ 11) * unitsInOne)
    (hsum : bound + more < (2 ^ 64 - 2 ^ 10) * unitsInOne) :
    Within ((2 ^ 64 - 2 ^ 11) * unitsInOne) (UnpackedFloat.add Format.binary64 x y) := by
  cases hx with
  | zero =>
      cases hy with
      | zero => exact .zero
      | finite pos h => exact .finite pos (h.trans hmore)
  | @finite m j pos h =>
      cases hy with
      | zero => exact .finite pos (h.trans hbound)
      | @finite m' j' pos' h' =>
          have hmin : min ((j : Int) - halvings) (j' - halvings) = (min j j' : Nat) - halvings := by
            omega
          have hshift (i : Nat) : ((i : Int) - halvings - ((min j j' : Nat) - halvings)).toNat =
              i - min j j' := by omega
          rw [add_finite pos pos' hmin, hshift, hshift, Nat.shiftLeft_eq, Nat.shiftLeft_eq,
            ← Int.natCast_add,
            normalize_natCast (Nat.add_pos_left (Nat.mul_pos pos (Nat.two_pow_pos _)) _)]
          refine within_round_of_lt ?_
          rw [Nat.add_mul, mul_two_pow_sub (Nat.min_le_left j j'), mul_two_pow_sub (Nat.min_le_right j j')]
          exact Nat.lt_of_le_of_lt (Nat.add_le_add h h') hsum

theorem unpack_nanosPerSec : (UInt64.ofNat nanosPerSec).toFloat.toModel.unpack =
    .finite .positive (nanosPerSec * 2 ^ 23) (-23) (by decide) := by
  rfl

/-- The exponent at which nanoseconds are divided is that of a number below one. -/
theorem two_pow_le_of_le_log2 {t : Nat} (pos : 0 < m) (h : m * 2 ^ j ≤ 2 ^ 30 * unitsInOne)
    (ht : t ≤ m.log2 + j - 82) : 2 ^ t ≤ unitsInOne := by
  have hexponent : m.log2 + j ≤ halvings + 30 := by
    refine (Nat.pow_le_pow_iff_right (by decide : 1 < 2)).1 ?_
    calc 2 ^ (m.log2 + j) = 2 ^ m.log2 * 2 ^ j := pow_add _ _ _
      _ ≤ m * 2 ^ j := Nat.mul_le_mul_right _ (Nat.log2_self_le (Nat.ne_of_gt pos))
      _ ≤ 2 ^ 30 * unitsInOne := h
      _ = 2 ^ (halvings + 30) := by rw [two_pow_halvings_add, mul_comm]
  calc 2 ^ t ≤ 2 ^ halvings := Nat.pow_le_pow_right (by decide) (by omega)
    _ = unitsInOne := two_pow_halvings

theorem quotient_mul_le {t : Nat} (h : m * 2 ^ j ≤ 2 ^ 30 * unitsInOne) (ht : t ≤ j + 23) :
    m * 2 ^ (j + 23 - t) / (nanosPerSec * 2 ^ 23) * 2 ^ t ≤ 2 * unitsInOne := by
  have hdiv := Nat.div_mul_le_self (m * 2 ^ (j + 23 - t)) (nanosPerSec * 2 ^ 23)
  generalize m * 2 ^ (j + 23 - t) / (nanosPerSec * 2 ^ 23) = q at hdiv ⊢
  refine Nat.le_of_mul_le_mul_right ?_ (by decide : 0 < 2 ^ 52)
  calc q * 2 ^ t * 2 ^ 52 ≤ q * 2 ^ t * (nanosPerSec * 2 ^ 23) :=
        Nat.mul_le_mul_left _ (by decide)
    _ = q * (nanosPerSec * 2 ^ 23) * 2 ^ t := by ring
    _ ≤ m * 2 ^ (j + 23 - t) * 2 ^ t := Nat.mul_le_mul_right _ hdiv
    _ = m * 2 ^ j * 2 ^ 23 := by rw [mul_two_pow_sub ht, pow_add, mul_assoc]
    _ ≤ 2 ^ 30 * unitsInOne * 2 ^ 23 := Nat.mul_le_mul_right _ h
    _ = 2 * unitsInOne * 2 ^ 52 := by ring

/-- Nanoseconds become seconds, of which there are not many. -/
theorem Within.div (hx : Within (2 ^ 30 * unitsInOne) x) (pos : 0 < nanosPerSec * 2 ^ 23) :
    Within (4 * unitsInOne)
      (UnpackedFloat.div Format.binary64 x (.finite .positive (nanosPerSec * 2 ^ 23) (-23) pos)) := by
  cases hx with
  | zero => exact .zero
  | @finite m j posm h =>
      have hlog : (nanosPerSec * 2 ^ 23).log2 = 52 := by decide
      have htarget : min ((j : Int) - halvings - -23) (Format.binary64.targetExponent
          (totalExponent m ((j : Int) - halvings) - totalExponent (nanosPerSec * 2 ^ 23) (-23))) =
            (min (j + 23) (m.log2 + j - 82) : Nat) - halvings := by
        rw [targetExponent_eq, totalExponent, totalExponent, hlog]
        omega
      rw [div_finite posm pos htarget]
      have hlow : min (j + 23) (m.log2 + j - 82) ≤ j + 23 := Nat.min_le_left _ _
      have hhigh : min (j + 23) (m.log2 + j - 82) ≤ m.log2 + j - 82 := Nat.min_le_right _ _
      generalize min (j + 23) (m.log2 + j - 82) = t at hlow hhigh
      have hshift : ((j : Int) - halvings - -23 - ((t : Int) - halvings)).toNat = j + 23 - t := by
        omega
      rw [hshift, Nat.shiftLeft_eq]
      refine within_roundWithAccuracy (Nat.le_trans (rounded_mul_le _ _ _) ?_)
      have hquot := quotient_mul_le h hlow
      have hstep := two_pow_step_le
        ((two_pow_le_of_le_log2 posm h hhigh).trans (Nat.le_mul_of_pos_left _ (by decide))) hquot
      omega

/-! ### Seconds -/

theorem unpack_toFloat {n : Nat} (h : n < 2 ^ 64) : (UInt64.ofNat n).toFloat.toModel.unpack =
    unpack Format.binary64 (pack Format.binary64 (UnpackedFloat.ofNat Format.binary64 n)) := by
  have hn : (UInt64.ofNat n).toNat = n := UInt64.toNat_ofNat_of_lt' h
  conv_rhs => rw [← hn]
  rfl

theorem within_toFloat {d : Duration} (h : d.secs < 2 ^ 64 - 2 ^ 10) :
    Within ((2 ^ 64 - 2 ^ 11) * unitsInOne) d.toFloat.toModel.unpack := by
  have htop : (2 ^ 64 - 2 ^ 11) * unitsInOne ≤ 2 ^ 64 * unitsInOne :=
    Nat.mul_le_mul_right _ (by decide)
  have hsecs : Within ((2 ^ 64 - 2 ^ 11) * unitsInOne)
      (UInt64.ofNat d.secs).toFloat.toModel.unpack := by
    rw [unpack_toFloat (by omega)]
    exact (within_ofNat_of_lt h).unpack_pack htop
  have hnanos : Within (2 ^ 30 * unitsInOne)
      (UInt64.ofNat d.subsecNanos).toFloat.toModel.unpack := by
    have hlt : d.subsecNanos < nanosPerSec := Nat.mod_lt _ (by decide)
    have hle : nanosPerSec ≤ 2 ^ 30 := by decide
    rw [unpack_toFloat (by omega)]
    refine Within.unpack_pack ((within_ofNat_of_log2_le ?_).mono (Nat.mul_le_mul_right _ (by omega)))
      (Nat.mul_le_mul_right _ (by decide))
    by_cases hzero : d.subsecNanos = 0
    · rw [hzero]
      decide
    · exact Nat.le_of_lt_succ ((Nat.log2_lt hzero).2 (by omega))
  have hfraction : Within (4 * unitsInOne) ((UInt64.ofNat d.subsecNanos).toFloat /
      (UInt64.ofNat nanosPerSec).toFloat).toModel.unpack := by
    refine Within.unpack_pack ?_ (Nat.mul_le_mul_right _ (by decide))
    show Within _ (UnpackedFloat.div Format.binary64 _ (UInt64.ofNat nanosPerSec).toFloat.toModel.unpack)
    rw [unpack_nanosPerSec]
    exact hnanos.div _
  refine Within.unpack_pack ?_ htop
  refine hsecs.add hfraction le_rfl (Nat.mul_le_mul_right _ (by decide)) ?_
  rw [← Nat.add_mul]
  exact Nat.mul_lt_mul_of_pos_right (by decide) unitsInOne_pos

theorem Within.exists_units? {f : Float} (h : Within bound f.toModel.unpack) :
    ∃ u, units? f = some u ∧ u ≤ bound := by
  rw [units?]
  generalize f.toModel.unpack = x at h
  cases h with
  | zero => exact ⟨0, rfl, Nat.zero_le _⟩
  | @finite m j pos h =>
      refine ⟨m * 2 ^ j, ?_, h⟩
      have hj : ((j : Int) - halvings + halvings).toNat = j := by omega
      dsimp only
      rw [hj]
      rfl

theorem nanosOfUnits_mul (n : Nat) : nanosOfUnits (n * unitsInOne) = n * nanosPerSec := by
  rw [nanosOfUnits, Nat.mul_right_comm, roundHalfEven_mul_right _ unitsInOne_pos]

/-- **A duration can be made again of the seconds of one as a double**, up to half a step below the limit. -/
theorem exists_ofFloat?_toFloat {d : Duration} (h : d.secs < secsLimit - 1024) :
    ∃ e, ofFloat? d.toFloat = some e := by
  obtain ⟨u, hu, hle⟩ := (within_toFloat h).exists_units?
  refine ⟨_, ofFloat?_eq_some_iff.2 ⟨u, hu, ?_, rfl⟩⟩
  calc nanosOfUnits u ≤ nanosOfUnits ((2 ^ 64 - 2 ^ 11) * unitsInOne) := nanosOfUnits_mono hle
    _ = (2 ^ 64 - 2 ^ 11) * nanosPerSec := nanosOfUnits_mul _
    _ < secsLimit * nanosPerSec := by decide

/-- From there on it is too long. -/
example : ofFloat? (ofSecs (secsLimit - 1024)).toFloat = none := by decide +kernel

end Duration

end Replica
