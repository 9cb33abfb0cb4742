import Mathlib

namespace Sequencer.Binary64

/-- The nearest whole number; none is below zero. -/
def nearest (q : ℚ) : ℕ :=
  if q - ⌊q⌋₊ < 1 / 2 then ⌊q⌋₊
  else if 1 / 2 < q - ⌊q⌋₊ then ⌊q⌋₊ + 1
  else ⌊q⌋₊ + ⌊q⌋₊ % 2

@[simp] theorem nearest_natCast (n : ℕ) : nearest n = n := by
  simp [nearest]

theorem nearest_bounds (q : ℚ) : ⌊q⌋₊ ≤ nearest q ∧ nearest q ≤ ⌊q⌋₊ + 1 := by
  unfold nearest
  split_ifs <;> omega

theorem nearest_mono {q r : ℚ} (h : q ≤ r) : nearest q ≤ nearest r := by
  rcases (Nat.floor_mono h).lt_or_eq with hlt | heq
  · have hq := (nearest_bounds q).2
    have hr := (nearest_bounds r).1
    omega
  · -- Within the same two neighbours it is the rest that decides.
    have hrest : q - ⌊q⌋₊ ≤ r - ⌊r⌋₊ := by rw [heq]; linarith
    unfold nearest
    rw [heq] at hrest ⊢
    split_ifs <;> first | omega | linarith

theorem nearest_of_nonpos {q : ℚ} (h : q ≤ 0) : nearest q = 0 := by
  have hz : nearest ((0 : ℕ) : ℚ) = 0 := nearest_natCast 0
  have hle := nearest_mono (h.trans_eq Nat.cast_zero.symm)
  omega

/-- The exponent of the last of the digits that a number of this size keeps. -/
def lastPlace (x : ℚ) : ℤ := max (Int.log 2 x - 52) (-1074)

/-- A number above zero, rounded; every other one is cut off at zero. -/
def magnitude (x : ℚ) : ℚ := nearest (x / 2 ^ lastPlace x) * 2 ^ lastPlace x

theorem magnitude_nonneg (x : ℚ) : 0 ≤ magnitude x := by
  unfold magnitude
  positivity

theorem magnitude_of_nonpos {x : ℚ} (h : x ≤ 0) : magnitude x = 0 := by
  have hq : x / 2 ^ lastPlace x ≤ 0 := div_nonpos_of_nonpos_of_nonneg h (by positivity)
  rw [magnitude, nearest_of_nonpos hq, Nat.cast_zero, zero_mul]

theorem lastPlace_mono {x y : ℚ} (hx : 0 < x) (h : x ≤ y) : lastPlace x ≤ lastPlace y := by
  have hlog := Int.log_mono_right (b := 2) hx h
  unfold lastPlace
  omega

theorem lt_of_lastPlace (x : ℚ) : x < 2 ^ (lastPlace x + 53) := by
  refine (Int.lt_zpow_succ_log_self (b := 2) (by norm_num) x).trans_le ?_
  exact zpow_le_zpow_right₀ (by norm_num) (by unfold lastPlace; omega)

theorem le_of_lastPlace {x : ℚ} (hx : 0 < x) (h : -1074 < lastPlace x) :
    2 ^ (lastPlace x + 52) ≤ x := by
  have hlog : lastPlace x + 52 = Int.log 2 x := by unfold lastPlace at h ⊢; omega
  rw [hlog]
  exact Int.zpow_log_le_self (by norm_num) hx

/-- Rounding does not leave the numbers of 53 digits. -/
theorem nearest_scaled_le (x : ℚ) : nearest (x / 2 ^ lastPlace x) ≤ 2 ^ 53 := by
  have hq : x / 2 ^ lastPlace x ≤ ((2 ^ 53 : ℕ) : ℚ) := by
    rw [div_le_iff₀ (by positivity)]
    have hlt := lt_of_lastPlace x
    rw [zpow_add₀ (by norm_num)] at hlt
    push_cast
    linarith
  exact (nearest_mono hq).trans_eq (nearest_natCast _)

theorem le_nearest_scaled {x : ℚ} (hx : 0 < x) (h : -1074 < lastPlace x) :
    2 ^ 52 ≤ nearest (x / 2 ^ lastPlace x) := by
  have hq : ((2 ^ 52 : ℕ) : ℚ) ≤ x / 2 ^ lastPlace x := by
    rw [le_div_iff₀ (by positivity)]
    have hle := le_of_lastPlace hx h
    rw [zpow_add₀ (by norm_num)] at hle
    push_cast
    linarith
  exact (nearest_natCast _).symm.trans_le (nearest_mono hq)

theorem magnitude_mono {x y : ℚ} (h : x ≤ y) : magnitude x ≤ magnitude y := by
  rcases le_or_gt x 0 with hx | hx
  · exact (magnitude_of_nonpos hx).trans_le (magnitude_nonneg y)
  rcases (lastPlace_mono hx h).lt_or_eq with hlt | heq
  · -- A power of two lies between numbers with different last places.
    have hy : -1074 < lastPlace y := by
      have hleast : -1074 ≤ lastPlace x := le_max_right _ _
      omega
    have hlow : (nearest (x / 2 ^ lastPlace x) : ℚ) ≤ 2 ^ 53 := by
      exact_mod_cast nearest_scaled_le x
    have hhigh : (2 ^ 52 : ℚ) ≤ nearest (y / 2 ^ lastPlace y) := by
      exact_mod_cast le_nearest_scaled (hx.trans_le h) hy
    calc magnitude x ≤ 2 ^ 53 * 2 ^ lastPlace x := by
          unfold magnitude; gcongr
      _ = 2 ^ 52 * 2 ^ (lastPlace x + 1) := by
          rw [zpow_add₀ (by norm_num), zpow_one]; ring
      _ ≤ 2 ^ 52 * 2 ^ lastPlace y := by
          gcongr
          · norm_num
          · omega
      _ ≤ magnitude y := by
          unfold magnitude; gcongr
  · unfold magnitude
    rw [heq]
    gcongr
    exact nearest_mono (by gcongr)

/-- Every number from here on is infinite. -/
def limit : ℚ := 2 ^ (1024 : ℤ)

theorem limit_pos : 0 < limit := by unfold limit; positivity

/-- What stays of a number that is put into 64 bits. -/
def rounded (x : ℚ) : ℚ := min (magnitude x) limit - min (magnitude (-x)) limit

theorem rounded_mono {x y : ℚ} (h : x ≤ y) : rounded x ≤ rounded y := by
  have hpos := min_le_min_right limit (magnitude_mono h)
  have hneg := min_le_min_right limit (magnitude_mono (neg_le_neg h))
  unfold rounded
  linarith

theorem rounded_of_nonneg {x : ℚ} (h : 0 ≤ x) : rounded x = min (magnitude x) limit := by
  have hz : min (0 : ℚ) limit = 0 := min_eq_left limit_pos.le
  rw [rounded, magnitude_of_nonpos (neg_nonpos.mpr h), hz, sub_zero]

theorem rounded_neg (x : ℚ) : rounded (-x) = -rounded x := by
  unfold rounded
  rw [neg_neg]
  ring

@[simp] theorem rounded_zero : rounded 0 = 0 := by
  rw [rounded_of_nonneg le_rfl, magnitude_of_nonpos le_rfl]
  exact min_eq_left limit_pos.le

theorem rounded_nonneg {x : ℚ} (h : 0 ≤ x) : 0 ≤ rounded x :=
  rounded_zero.symm.trans_le (rounded_mono h)

end Sequencer.Binary64
