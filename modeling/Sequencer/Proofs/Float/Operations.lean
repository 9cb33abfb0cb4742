import Sequencer.Proofs.Float.Packing

namespace Sequencer.Binary64

open Float.Model (Format UnpackedFloat totalExponent)
open Float.Model.UnpackedFloat
open Float.Model.Format (binary64)

/-- The number `x`, rounded but not yet packed. -/
def Rounds (x : ℚ) (u : UnpackedFloat) : Prop :=
  ∃ s y, 0 ≤ y ∧ x = factor s * y ∧ Stands s (magnitude y) u

theorem Rounds.zero {x : ℚ} (s : Sign) (h : x = 0) : Rounds x (.zero s) :=
  ⟨s, 0, le_rfl, by rw [h, mul_zero], .zero (magnitude_of_nonpos le_rfl)⟩

theorem rounded_factor (s : Sign) {y : ℚ} (h : 0 ≤ y) :
    rounded (factor s * y) = factor s * min (magnitude y) limit := by
  cases s with
  | negative => rw [factor, neg_one_mul, neg_one_mul, rounded_neg, rounded_of_nonneg h]
  | positive => rw [factor, one_mul, one_mul, rounded_of_nonneg h]

/-- What is packed of a rounded number. -/
theorem Rounds.unpack_pack {x : ℚ} {u : UnpackedFloat} (h : Rounds x u) :
    (unpack binary64 (pack binary64 u)).isNaN = false ∧
      value (unpack binary64 (pack binary64 u)) = rounded x := by
  obtain ⟨s, y, hy, rfl, hstands⟩ := h
  rw [rounded_factor s hy]
  exact hstands.unpack_pack

/-- A finite number needs no rounding. -/
theorem Packed.rounds {u : UnpackedFloat} (h : Packed u) (hfinite : u.isFinite = true) :
    Rounds (value u) u := by
  cases h with
  | notANumber | infinity => cases hfinite
  | zero s => exact .zero s rfl
  | @finite s m e pos canonical =>
    exact ⟨s, m * 2 ^ e, by positivity, rfl,
      .finite canonical (canonical.magnitude_eq pos)⟩

theorem Packed.rounded_value {u : UnpackedFloat} (h : Packed u) (hfinite : u.isFinite = true) :
    rounded (value u) = value u := by
  cases h with
  | notANumber | infinity => cases hfinite
  | zero s => exact rounded_zero
  | @finite s m e pos canonical fits =>
    have hpos : 0 ≤ (m : ℚ) * 2 ^ e := by positivity
    rw [value, rounded_factor s hpos, canonical.magnitude_eq pos,
      min_eq_left (canonical.lt_limit fits).le]

theorem decreaseExponent_value (m : ℕ) (e t : ℤ) :
    ((decreaseExponent m e t).1 : ℚ) * 2 ^ (decreaseExponent m e t).2 = m * 2 ^ e := by
  simp only [decreaseExponent, Nat.shiftLeft_eq, Nat.cast_mul, Nat.cast_pow, Nat.cast_ofNat]
  rw [← zpow_natCast, mul_assoc, ← zpow_add₀ (by norm_num)]
  congr 2
  omega

theorem decreaseExponent_pos {m : ℕ} (hm : 0 < m) (e t : ℤ) : 0 < (decreaseExponent m e t).1 := by
  simp only [decreaseExponent, Nat.shiftLeft_eq]
  positivity

/-- Once there are digits enough, the last place to keep is not above them. -/
theorem decreaseExponent_target {m : ℕ} (hm : 0 < m) {e t : ℤ}
    (ht : binary64.targetExponent (totalExponent m e) = t) :
    (decreaseExponent m e t).2 ≤ binary64.targetExponent
      (totalExponent (decreaseExponent m e t).1 (decreaseExponent m e t).2) := by
  have hlog : ((decreaseExponent m e t).1.log2 : ℤ) + (decreaseExponent m e t).2 = m.log2 + e := by
    rw [← log_natCast (decreaseExponent_pos hm e t), decreaseExponent_value, log_natCast hm]
  have hexponent : (decreaseExponent m e t).2 ≤ t := by
    simp only [decreaseExponent]
    omega
  rw [targetExponent_eq] at ht ⊢
  omega

theorem round_rounds {s : Sign} {m : ℕ} (hm : 0 < m) (e : ℤ) :
    Rounds (factor s * (m * 2 ^ e)) (UnpackedFloat.round binary64 s m e) := by
  refine ⟨s, m * 2 ^ e, by positivity, rfl, ?_⟩
  rw [← decreaseExponent_value m e (binary64.targetExponent (totalExponent m e))]
  exact roundWithAccuracy_exact (decreaseExponent_pos hm _ _) (decreaseExponent_target hm rfl)

theorem normalize_rounds (m e : ℤ) (s : Sign) :
    Rounds (m * 2 ^ e) (UnpackedFloat.normalize binary64 m e s) := by
  unfold UnpackedFloat.normalize
  rcases lt_trichotomy m 0 with hneg | rfl | hpos
  · have hm : (m : ℚ) * 2 ^ e = factor .negative * (((-m).toNat : ℕ) * 2 ^ e) := by
      have hcast : (((-m).toNat : ℕ) : ℚ) = -m := by exact_mod_cast Int.toNat_of_nonneg (by omega)
      rw [hcast, factor]
      ring
    rw [compare_lt_iff_lt.mpr hneg, hm]
    exact round_rounds (by omega) e
  · rw [compare_eq_iff_eq.mpr rfl]
    exact .zero s (by simp)
  · have hm : (m : ℚ) * 2 ^ e = factor .positive * ((m.toNat : ℕ) * 2 ^ e) := by
      have hcast : ((m.toNat : ℕ) : ℚ) = m := by exact_mod_cast Int.toNat_of_nonneg hpos.le
      rw [hcast, factor, one_mul]
    rw [compare_gt_iff_gt.mpr hpos, hm]
    exact round_rounds (by omega) e

theorem ofNat_rounds (n : ℕ) : Rounds n (ofNat binary64 n) := by
  have h := normalize_rounds n 0 .positive
  rwa [zpow_zero, mul_one, Int.cast_natCast] at h

theorem apply_eq (s : Sign) (n : ℕ) : ((s.apply n : ℤ) : ℚ) = factor s * n := by
  cases s <;> simp [Sign.apply, factor]

/-- A mantissa moved to a lower exponent. -/
theorem apply_decreaseExponent (s : Sign) (m : ℕ) {e t : ℤ} (h : t ≤ e) :
    ((s.apply ((decreaseExponent m e t).1 : ℕ) : ℤ) : ℚ) * 2 ^ t = factor s * (m * 2 ^ e) := by
  have hvalue := decreaseExponent_value m e t
  have hexponent : (decreaseExponent m e t).2 = t := by
    simp only [decreaseExponent]
    omega
  rw [hexponent] at hvalue
  rw [apply_eq, mul_assoc, hvalue]

theorem add_rounds {u v : UnpackedFloat} (hu : Packed u) (hv : Packed v)
    (hu' : u.isFinite = true) (hv' : v.isFinite = true) :
    Rounds (value u + value v) (add binary64 u v) := by
  have hroundsu := hu.rounds hu'
  have hroundsv := hv.rounds hv'
  cases hu with
  | notANumber | infinity => cases hu'
  | zero s =>
    cases hv with
    | notANumber | infinity => cases hv'
    | zero s' =>
      simp only [add]
      split <;> exact .zero _ (add_zero 0)
    | finite =>
      rw [value_zero, zero_add]
      exact hroundsv
  | @finite s m e pos =>
    cases hv with
    | notANumber | infinity => cases hv'
    | zero s' =>
      rw [value_zero, add_zero]
      exact hroundsu
    | @finite s' m' e' pos' =>
      have hexact := normalize_rounds (s.apply (decreaseExponent m e (min e e')).1 +
        s'.apply (decreaseExponent m' e' (min e e')).1) (min e e') .positive
      rw [Int.cast_add, add_mul, apply_decreaseExponent s m (min_le_left e e'),
        apply_decreaseExponent s' m' (min_le_right e e')] at hexact
      exact hexact

theorem factor_neg (s : Sign) : factor (-s) = -factor s := by
  cases s <;> simp only [factor, neg_neg]

theorem factor_mul (s s' : Sign) : factor (s * s') = factor s * factor s' := by
  cases s <;> cases s' <;> simp only [factor, mul_one, one_mul, neg_mul_neg]

theorem factor_div (s s' : Sign) : factor (s / s') = factor s * factor s' := by
  have hdiv : s / s' = s * s' := by cases s <;> cases s' <;> rfl
  rw [hdiv, factor_mul]

theorem value_neg (u : UnpackedFloat) : value u.neg = -value u := by
  cases u <;> simp only [neg, value, factor_neg, neg_mul, neg_zero]

theorem Packed.neg {u : UnpackedFloat} (h : Packed u) : Packed u.neg := by
  cases h with
  | notANumber => exact .notANumber
  | infinity s => exact .infinity _
  | zero s => exact .zero _
  | finite canonical fits => exact .finite canonical fits

theorem isFinite_neg (u : UnpackedFloat) : u.neg.isFinite = u.isFinite := by
  cases u <;> rfl

theorem apply_neg (s : Sign) (n : ℤ) : (-s).apply n = -s.apply n := by
  cases s
  · exact (neg_neg n).symm
  · rfl

/-- A difference is a sum with the sign of the second number turned around. -/
theorem sub_eq_add (u v : UnpackedFloat) :
    sub binary64 u v = add binary64 u v.neg := by
  cases u <;> cases v <;> try rfl
  simp only [sub, add, UnpackedFloat.neg, apply_neg, Int.sub_eq_add_neg]

theorem sub_rounds {u v : UnpackedFloat} (hu : Packed u) (hv : Packed v)
    (hu' : u.isFinite = true) (hv' : v.isFinite = true) :
    Rounds (value u - value v) (sub binary64 u v) := by
  rw [sub_eq_add, sub_eq_add_neg, ← value_neg]
  exact add_rounds hu hv.neg hu' ((isFinite_neg v).trans hv')

/-- The product of two canonical mantissas has digits to spare, unless it is below the least
place. -/
theorem mul_target {m m' : ℕ} {e e' : ℤ} (h : Canonical m e) (h' : Canonical m' e') (hm : 0 < m)
    (hm' : 0 < m') : e + e' ≤ binary64.targetExponent (totalExponent (m * m') (e + e')) := by
  rw [targetExponent_eq]
  by_cases hfull : 2 ^ 52 ≤ m * m'
  · have hlog := (Nat.le_log2 (Nat.mul_pos hm hm').ne').mpr hfull
    omega
  · have hle : m ≤ m * m' := Nat.le_mul_of_pos_right m hm'
    have hle' : m' ≤ m * m' := Nat.le_mul_of_pos_left m' hm
    have he : ¬ -1074 < e := fun hlt => hfull ((h.full hlt).trans hle)
    have he' : ¬ -1074 < e' := fun hlt => hfull ((h'.full hlt).trans hle')
    omega

theorem mul_rounds {u v : UnpackedFloat} (hu : Packed u) (hv : Packed v)
    (hu' : u.isFinite = true) (hv' : v.isFinite = true) :
    Rounds (value u * value v) (mul binary64 u v) := by
  cases hu with
  | notANumber | infinity => cases hu'
  | zero s =>
    cases hv with
    | notANumber | infinity => cases hv'
    | zero | finite => exact .zero _ (zero_mul _)
  | @finite s m e pos canonical =>
    cases hv with
    | notANumber | infinity => cases hv'
    | zero s' => exact .zero _ (mul_zero _)
    | @finite s' m' e' pos' canonical' =>
      have hexact : ((m * m' : ℕ) : ℚ) * 2 ^ (e + e') = m * 2 ^ e * (m' * 2 ^ e') := by
        rw [zpow_add₀ (by norm_num), Nat.cast_mul]
        ring
      refine ⟨s * s', m * 2 ^ e * (m' * 2 ^ e'), by positivity, ?_, ?_⟩
      · rw [value, value, factor_mul]
        ring
      · rw [← hexact]
        exact roundWithAccuracy_exact (Nat.mul_pos pos pos')
          (mul_target canonical canonical' pos pos')

theorem accuracyOfFraction_tells {n d : ℕ} (hd : 0 < d) :
    Tells (n / d) ((n : ℚ) / d) (accuracyOfFraction (n % d) d) := by
  have hn : (n : ℚ) / d = (n / d : ℕ) + ((n % d : ℕ) : ℚ) / d := by
    have hparts : (n : ℚ) = d * (n / d : ℕ) + (n % d : ℕ) := by
      exact_mod_cast (Nat.div_add_mod n d).symm
    rw [eq_comm, ← sub_eq_zero]
    field_simp
    linarith
  have hrest : ((n % d : ℕ) : ℚ) / d < 1 := by
    rw [div_lt_one (by positivity)]
    exact_mod_cast Nat.mod_lt n hd
  rw [hn]
  unfold accuracyOfFraction
  split
  case isTrue hz => simp only [Tells, hz, Nat.cast_zero, zero_div, add_zero]
  case isFalse hz =>
    have hpos : 0 < ((n % d : ℕ) : ℚ) / d := by positivity
    rcases lt_trichotomy (2 * (n % d)) d with hlt | heq | hgt
    · have hhalf : ((n % d : ℕ) : ℚ) / d < 1 / 2 := by
        rw [div_lt_div_iff₀ (by positivity) (by norm_num)]
        exact_mod_cast (by omega : n % d * 2 < 1 * d)
      rw [compare_lt_iff_lt.mpr hlt]
      exact ⟨by linarith, by linarith⟩
    · have hhalf : ((n % d : ℕ) : ℚ) / d = 1 / 2 := by
        rw [div_eq_div_iff (by positivity) (by norm_num)]
        exact_mod_cast (by omega : n % d * 2 = 1 * d)
      rw [compare_eq_iff_eq.mpr heq, hhalf]
      exact rfl
    · have hhalf : 1 / 2 < ((n % d : ℕ) : ℚ) / d := by
        rw [div_lt_div_iff₀ (by norm_num) (by positivity)]
        exact_mod_cast (by omega : 1 * d < n % d * 2)
      rw [compare_gt_iff_gt.mpr hgt]
      exact ⟨by linarith, by linarith⟩

theorem divCore_spec {m m' : ℕ} (hm : 0 < m) (hm' : 0 < m') (e e' : ℤ) :
    ∃ n t acc q, divCore binary64 m e m' e' = (n, t, acc) ∧ Tells n q acc ∧
      q * 2 ^ t = m * 2 ^ e / (m' * 2 ^ e') ∧
      t ≤ binary64.targetExponent (totalExponent n t) := by
  unfold divCore
  dsimp only
  generalize htarget : min (e - e') (binary64.targetExponent
    (totalExponent m e - totalExponent m' e')) = t
  have hroom : t ≤ e - e' := htarget ▸ min_le_left _ _
  obtain ⟨k, hk⟩ : ∃ k : ℕ, e - e' = t + k := ⟨_, (add_sub_cancel _ _).symm.trans
    (congrArg _ (Int.toNat_of_nonneg (sub_nonneg.mpr hroom)).symm)⟩
  have hamount : (e - e' - t).toNat = k := by omega
  refine ⟨_, t, _, _, rfl, accuracyOfFraction_tells hm', ?_, ?_⟩
  · have he : e = t + k + e' := by omega
    rw [hamount, Nat.shiftLeft_eq, he, zpow_add₀ (by norm_num), zpow_add₀ (by norm_num),
      zpow_natCast]
    push_cast
    field_simp
  · rw [targetExponent_eq, hamount, Nat.shiftLeft_eq]
    rcases le_or_gt t (-1074) with hleast | hmore
    · exact hleast.trans (le_max_right _ _)
    -- The dividend was shifted until the quotient has as many digits as are kept.
    have hdigits : t ≤ m.log2 + e - (m'.log2 + e') - 53 := by
      simp only [Format.targetExponent, totalExponent, Format.mantissaBits,
        Format.minExponent] at htarget
      norm_num at htarget
      omega
    have hquotient : 2 ^ 52 ≤ m * 2 ^ k / m' := by
      rw [Nat.le_div_iff_mul_le hm']
      calc 2 ^ 52 * m' ≤ 2 ^ 52 * 2 ^ (m'.log2 + 1) := Nat.mul_le_mul_left _ Nat.lt_log2_self.le
        _ = 2 ^ (52 + (m'.log2 + 1)) := (pow_add 2 52 _).symm
        _ ≤ 2 ^ (m.log2 + k) := Nat.pow_le_pow_right (by norm_num) (by omega)
        _ = 2 ^ m.log2 * 2 ^ k := pow_add 2 _ _
        _ ≤ m * 2 ^ k := Nat.mul_le_mul_right _ (Nat.log2_self_le hm.ne')
    have hlog := (Nat.le_log2 (Nat.two_pow_pos 52 |>.trans_le hquotient).ne').mpr hquotient
    omega

theorem div_rounds {u v : UnpackedFloat} (hu : Packed u) (hv : Packed v)
    (hu' : u.isFinite = true) (hv' : v.isFinite = true) (hne : value v ≠ 0) :
    Rounds (value u / value v) (div binary64 u v) := by
  cases hv with
  | notANumber | infinity => cases hv'
  | zero => exact absurd rfl hne
  | @finite s' m' e' pos' =>
    cases hu with
    | notANumber | infinity => cases hu'
    | zero s => exact .zero _ (zero_div _)
    | @finite s m e pos =>
      obtain ⟨n, t, acc, q, hcore, htells, hq, htarget⟩ := divCore_spec pos pos' e e'
      have hpos : 0 < q := by
        have hproduct : 0 < q * 2 ^ t := hq ▸ by positivity
        exact pos_of_mul_pos_left hproduct (by positivity)
      refine ⟨s / s', m * 2 ^ e / (m' * 2 ^ e'), by positivity, ?_, ?_⟩
      · rw [value, value, factor_div]
        cases s' <;> simp only [factor] <;> ring
      · simp only [div, hcore]
        rw [← hq]
        exact roundWithAccuracy_stands htells hpos htarget

end Sequencer.Binary64
