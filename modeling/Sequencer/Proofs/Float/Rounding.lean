import Sequencer.Proofs.Float.Nearest

namespace Sequencer.Binary64

open Float.Model Float.Model.UnpackedFloat
open Float.Model.Format (binary64)

/-- Mantissa and exponent as 64 bits keep them: without a leading zero, unless the exponent is the
least one. -/
structure Canonical (m : ℕ) (e : ℤ) : Prop where
  narrow : m < 2 ^ 53
  least : -1074 ≤ e
  full : -1074 < e → 2 ^ 52 ≤ m

/-- A float of sign `s` and magnitude `x`. -/
inductive Stands (s : Sign) (x : ℚ) : UnpackedFloat → Prop
  | zero (value : x = 0) : Stands s x (.zero s)
  | finite {m : ℕ} {e : ℤ} {pos : 0 < m} (canonical : Canonical m e) (value : x = m * 2 ^ e) :
      Stands s x (.finite s m e pos)

theorem log_scaled {q : ℚ} {l : ℕ} (hlow : 2 ^ l ≤ q) (hhigh : q < 2 ^ (l + 1)) (e : ℤ) :
    Int.log 2 (q * 2 ^ e) = l + e := by
  have hpos : 0 < q := lt_of_lt_of_le (by positivity) hlow
  have hle : (l : ℤ) + e ≤ Int.log 2 (q * 2 ^ e) := by
    rw [← Int.zpow_le_iff_le_log (by norm_num) (by positivity), Nat.cast_ofNat,
      zpow_add₀ (by norm_num), zpow_natCast]
    gcongr
  have hlt : Int.log 2 (q * 2 ^ e) < (l : ℤ) + 1 + e := by
    rw [← Int.lt_zpow_iff_log_lt (by norm_num) (by positivity), Nat.cast_ofNat,
      zpow_add₀ (by norm_num), ← Nat.cast_succ, zpow_natCast]
    gcongr
  omega

theorem log_natCast {m : ℕ} (hm : 0 < m) (e : ℤ) : Int.log 2 ((m : ℚ) * 2 ^ e) = m.log2 + e :=
  log_scaled (by exact_mod_cast Nat.log2_self_le hm.ne')
    (by exact_mod_cast Nat.lt_log2_self (n := m)) e

/-- Where the number `q` lies between `m` and `m + 1`. -/
def Tells (m : ℕ) (q : ℚ) : Accuracy → Prop
  | .exact => q = m
  | .inexact .lt => m < q ∧ q < m + 1 / 2
  | .inexact .eq => q = m + 1 / 2
  | .inexact .gt => m + 1 / 2 < q ∧ q < m + 1

theorem Tells.bounds {m : ℕ} {q : ℚ} {acc : Accuracy} (h : Tells m q acc) :
    (m : ℚ) ≤ q ∧ q < m + 1 := by
  rcases acc with _ | ⟨_ | _ | _⟩ <;> simp only [Tells] at h <;> constructor <;> linarith

theorem Tells.floor {m : ℕ} {q : ℚ} {acc : Accuracy} (h : Tells m q acc) : ⌊q⌋₊ = m :=
  (Nat.floor_eq_iff (m.cast_nonneg.trans h.bounds.1)).mpr h.bounds

theorem Tells.nearest_eq {m : ℕ} {q : ℚ} {acc : Accuracy} (h : Tells m q acc) :
    acc.roundToNearestEven m = nearest q := by
  unfold nearest
  rw [h.floor]
  rcases acc with _ | ⟨_ | _ | _⟩ <;> simp only [Tells] at h <;>
    simp only [Accuracy.roundToNearestEven] <;> split_ifs <;> first | rfl | linarith

/-- What a mantissa and its two spare bits say. -/
def Holds (em : ExtendedMantissa) (q : ℚ) : Prop := Tells em.mantissa q em.accuracy

theorem holds_of_tells {m : ℕ} {q : ℚ} {acc : Accuracy} (h : Tells m q acc) :
    Holds (.ofMantissaAndAccuracy m acc) q := by
  rcases acc with _ | ⟨_ | _ | _⟩ <;> exact h

theorem Holds.shiftRightOne {em : ExtendedMantissa} {q : ℚ} (h : Holds em q) :
    Holds em.shiftRightOne (q / 2) := by
  obtain ⟨m, roundBit, stickyBit⟩ := em
  have hm : (m : ℚ) = 2 * (m / 2 : ℕ) + (m % 2 : ℕ) := by exact_mod_cast (Nat.div_add_mod m 2).symm
  have hodd : (1 != 0) = true := rfl
  rcases Nat.mod_two_eq_zero_or_one m with hbit | hbit <;> rw [hbit] at hm <;> push_cast at hm <;>
    cases roundBit <;> cases stickyBit <;>
    simp only [Holds, Tells, ExtendedMantissa.accuracy, ExtendedMantissa.shiftRightOne, hbit, hodd,
      bne_self_eq_false, Bool.or_self, Bool.or_true, Bool.or_false, hm] at h ⊢ <;>
    first | linarith | constructor <;> linarith

theorem Holds.shiftRight {em : ExtendedMantissa} {q : ℚ} (h : Holds em q) (k : ℕ) :
    Holds (em >>> k) (q / 2 ^ k) := by
  change Holds (k.repeat ExtendedMantissa.shiftRightOne em) _
  induction k with
  | zero => simpa [Nat.repeat] using h
  | succ k ih =>
    rw [pow_succ, ← div_div]
    exact ih.shiftRightOne

theorem targetExponent_eq (m : ℕ) (e : ℤ) :
    binary64.targetExponent (totalExponent m e) = max (m.log2 + e - 52) (-1074) := by
  simp only [Format.targetExponent, totalExponent, Format.mantissaBits, Format.minExponent]
  norm_num
  omega

/-- The leading digits tell where the last place of a number is. -/
theorem targetExponent_eq_lastPlace {m : ℕ} {e : ℤ} {q : ℚ} {acc : Accuracy}
    (h : Tells m q acc) (hq : 0 < q)
    (he : e ≤ binary64.targetExponent (totalExponent m e)) :
    binary64.targetExponent (totalExponent m e) = lastPlace (q * 2 ^ e) := by
  obtain ⟨hlow, hhigh⟩ := h.bounds
  rw [targetExponent_eq] at he ⊢
  rcases Nat.eq_zero_or_pos m with rfl | hm
  · -- A number below one has no leading digit, and is to be rounded at the least place.
    have hlog : Int.log 2 (q * 2 ^ e) < e := by
      rw [← Int.lt_zpow_iff_log_lt (by norm_num) (by positivity), Nat.cast_ofNat]
      exact mul_lt_of_lt_one_left (by positivity) (by simpa using hhigh)
    have hzero : Nat.log2 0 = 0 := by decide
    unfold lastPlace
    omega
  · have hself : (2 ^ m.log2 : ℚ) ≤ m := by exact_mod_cast Nat.log2_self_le hm.ne'
    have hnext : (m : ℚ) + 1 ≤ 2 ^ (m.log2 + 1) := by exact_mod_cast Nat.lt_log2_self (n := m)
    rw [lastPlace, log_scaled (hself.trans hlow) (hhigh.trans_le hnext)]

theorem shift_narrow {m : ℕ} {e : ℤ} (hm : m < 2 ^ 53) (he : -1074 ≤ e) :
    shiftToTargetExponent binary64 m e .exact = (⟨m, false, false⟩, e) := by
  have hlog : m.log2 ≤ 52 := by
    rcases Nat.eq_zero_or_pos m with rfl | hpos
    · decide
    · exact Nat.le_of_lt_succ ((Nat.log2_lt hpos.ne').mpr hm)
  have hk : (binary64.targetExponent (totalExponent m e) - e).toNat = 0 := by
    rw [targetExponent_eq]; omega
  simp [shiftToTargetExponent, shiftToExponent, hk, HShiftRight.hShiftRight, Nat.repeat,
    ExtendedMantissa.ofMantissaAndAccuracy]

theorem shift_carry {e : ℤ} (he : -1074 ≤ e) :
    shiftToTargetExponent binary64 (2 ^ 53) e .exact = (⟨2 ^ 52, false, false⟩, e + 1) := by
  have hk : (binary64.targetExponent (totalExponent (2 ^ 53) e) - e).toNat = 1 := by
    rw [targetExponent_eq, Nat.log2_two_pow]; omega
  simp only [shiftToTargetExponent, shiftToExponent, hk]
  rfl

/-- A mantissa that was rounded up to one digit more is still one that 64 bits keep. -/
theorem stands_of_shift {s : Sign} {n : ℕ} {e : ℤ} (hn : n ≤ 2 ^ 53) (he : -1074 ≤ e)
    (hfull : -1074 < e → 2 ^ 52 ≤ n) :
    Stands s (n * 2 ^ e)
      (if h : (shiftToTargetExponent binary64 n e .exact).1.mantissa = 0 then .zero s
        else .finite s (shiftToTargetExponent binary64 n e .exact).1.mantissa
          (shiftToTargetExponent binary64 n e .exact).2 (Nat.pos_of_ne_zero h)) := by
  rcases hn.lt_or_eq with hlt | rfl
  · simp only [shift_narrow hlt he]
    split
    case isTrue hz => exact .zero (by rw [hz, Nat.cast_zero, zero_mul])
    case isFalse hz => exact .finite ⟨hlt, he, hfull⟩ rfl
  · simp only [shift_carry he]
    rw [dif_neg (by norm_num)]
    refine .finite ⟨by norm_num, by omega, fun _ => le_rfl⟩ ?_
    rw [zpow_add₀ (by norm_num), zpow_one]
    push_cast
    ring

/-- A mantissa with digits to spare is rounded to the nearest. -/
theorem roundWithAccuracy_stands {s : Sign} {m : ℕ} {e : ℤ} {q : ℚ} {acc : Accuracy}
    (h : Tells m q acc) (hq : 0 < q)
    (he : e ≤ binary64.targetExponent (totalExponent m e)) :
    Stands s (magnitude (q * 2 ^ e)) (roundWithAccuracy binary64 s m e acc) := by
  have htarget := targetExponent_eq_lastPlace h hq he
  rw [htarget] at he
  obtain ⟨k, hk⟩ : ∃ k : ℕ, lastPlace (q * 2 ^ e) = e + k :=
    ⟨_, (add_sub_cancel _ _).symm.trans (congrArg _ (Int.toNat_of_nonneg (sub_nonneg.mpr he)).symm)⟩
  have hscaled : q * 2 ^ e / 2 ^ lastPlace (q * 2 ^ e) = q / 2 ^ k := by
    rw [hk, zpow_add₀ (by norm_num), zpow_natCast]
    field_simp
  have hround : (ExtendedMantissa.ofMantissaAndAccuracy m acc >>> k).roundedMantissa =
      nearest (q * 2 ^ e / 2 ^ lastPlace (q * 2 ^ e)) := by
    rw [hscaled]
    exact ((holds_of_tells h).shiftRight k).nearest_eq
  have hshift : shiftToTargetExponent binary64 m e acc =
      (ExtendedMantissa.ofMantissaAndAccuracy m acc >>> k, lastPlace (q * 2 ^ e)) := by
    have hamount : (lastPlace (q * 2 ^ e) - e).toNat = k := by omega
    rw [shiftToTargetExponent, htarget, shiftToExponent, hamount, hk]
  unfold roundWithAccuracy magnitude
  simp only [hshift, hround]
  exact stands_of_shift (nearest_scaled_le _) (le_max_right _ _) fun hleast =>
    le_nearest_scaled (by positivity) hleast

theorem roundWithAccuracy_exact {s : Sign} {m : ℕ} {e : ℤ} (hm : 0 < m)
    (he : e ≤ binary64.targetExponent (totalExponent m e)) :
    Stands s (magnitude (m * 2 ^ e)) (roundWithAccuracy binary64 s m e .exact) :=
  roundWithAccuracy_stands rfl (by exact_mod_cast hm) he

/-- A number that 64 bits keep is its own nearest. -/
theorem Canonical.magnitude_eq {m : ℕ} {e : ℤ} (h : Canonical m e) (hm : 0 < m) :
    magnitude (m * 2 ^ e) = m * 2 ^ e := by
  have hlog : m.log2 < 53 := (Nat.log2_lt hm.ne').mpr h.narrow
  have hplace : lastPlace ((m : ℚ) * 2 ^ e) = e := by
    rw [lastPlace, log_natCast hm]
    have hleast := h.least
    rcases hleast.lt_or_eq with hlt | rfl
    · have hfull := (Nat.le_log2 hm.ne').mpr (h.full hlt)
      omega
    · omega
  have hscaled : (m : ℚ) * 2 ^ e / 2 ^ e = m := mul_div_cancel_right₀ _ (by positivity)
  rw [magnitude, hplace, hscaled, nearest_natCast]

end Sequencer.Binary64
