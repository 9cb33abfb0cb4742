import Sequencer.Proofs.Float.Operations
import Sequencer.Tick

namespace Sequencer.Binary64

open Float.Model (UnpackedFloat)
open Float.Model.UnpackedFloat
open Float.Model.Format (binary64)

/-- The rational that `x` stands for. -/
def valueOf (x : Float) : ℚ := value x.toModel.unpack

theorem valueOf_zero : valueOf 0 = 0 := rfl

theorem packed (x : Float) : Packed x.toModel.unpack := packed_unpack _

theorem valueOf_bounds (x : Float) : -limit ≤ valueOf x ∧ valueOf x ≤ limit :=
  ⟨(packed x).value_bounds.1, (packed x).value_bounds.2.1⟩

theorem isNaN_of_isFinite {x : Float} (h : x.isFinite = true) : x.isNaN = false := by
  change x.toModel.unpack.isFinite = true at h
  change x.toModel.unpack.isNaN = false
  cases hx : x.toModel.unpack <;> simp_all [UnpackedFloat.isFinite, UnpackedFloat.isNaN]

/-- The finite numbers are those strictly between the infinite ones. -/
theorem isFinite_iff {x : Float} (hx : x.isNaN = false) :
    x.isFinite = true ↔ -limit < valueOf x ∧ valueOf x < limit := by
  refine ⟨(packed x).value_bounds.2.2, fun h => ?_⟩
  have hpacked := packed x
  change x.toModel.unpack.isNaN = false at hx
  change x.toModel.unpack.isFinite = true
  unfold valueOf at h
  generalize x.toModel.unpack = u at *
  cases hpacked with
  | notANumber => cases hx
  | infinity s => cases s <;> simp [value, factor] at h
  | zero | finite => rfl

theorem rounded_valueOf {x : Float} (h : x.isFinite = true) : rounded (valueOf x) = valueOf x :=
  (packed x).rounded_value h

section Order

variable {x y z : Float}

theorem le_iff_compare :
    x ≤ y ↔ (x.toModel.unpack.compare y.toModel.unpack).any (·.isLE) = true := by
  change decide (x.toModel ≤ y.toModel) = true ↔ _
  rw [decide_eq_true_iff]
  rfl

theorem lt_iff_compare :
    x < y ↔ (x.toModel.unpack.compare y.toModel.unpack == some .lt) = true := by
  change decide (x.toModel < y.toModel) = true ↔ _
  rw [decide_eq_true_iff]
  rfl

theorem le_iff (hx : x.isNaN = false) (hy : y.isNaN = false) : x ≤ y ↔ valueOf x ≤ valueOf y := by
  rw [le_iff_compare, (packed x).compare_eq (packed y) hx hy]
  change (compare (valueOf x) (valueOf y)).isLE = true ↔ _
  rw [Ordering.isLE_iff_ne_gt]
  exact compare_le_iff_le

theorem lt_iff (hx : x.isNaN = false) (hy : y.isNaN = false) : x < y ↔ valueOf x < valueOf y := by
  rw [lt_iff_compare, (packed x).compare_eq (packed y) hx hy, beq_iff_eq, Option.some_inj]
  exact compare_lt_iff_lt

/-- Only numbers compare. -/
theorem isNaN_of_compare (h : x.toModel.unpack.compare y.toModel.unpack ≠ none) :
    x.isNaN = false ∧ y.isNaN = false := by
  change x.toModel.unpack.isNaN = false ∧ y.toModel.unpack.isNaN = false
  cases hx : x.toModel.unpack <;> cases hy : y.toModel.unpack <;>
    simp_all [UnpackedFloat.compare, UnpackedFloat.isNaN]

theorem isNaN_of_le (h : x ≤ y) : x.isNaN = false ∧ y.isNaN = false := by
  rw [le_iff_compare] at h
  exact isNaN_of_compare fun hnone => by rw [hnone] at h; cases h

theorem isNaN_of_lt (h : x < y) : x.isNaN = false ∧ y.isNaN = false := by
  rw [lt_iff_compare] at h
  exact isNaN_of_compare fun hnone => by rw [hnone] at h; cases h

protected theorem le_refl (h : x.isNaN = false) : x ≤ x := (le_iff h h).mpr (by rfl)

protected theorem le_trans (hxy : x ≤ y) (hyz : y ≤ z) : x ≤ z := by
  obtain ⟨hx, hy⟩ := isNaN_of_le hxy
  obtain ⟨-, hz⟩ := isNaN_of_le hyz
  rw [le_iff hx hy] at hxy
  rw [le_iff hy hz] at hyz
  exact (le_iff hx hz).mpr (hxy.trans hyz)

protected theorem lt_of_le_of_lt (hxy : x ≤ y) (hyz : y < z) : x < z := by
  obtain ⟨hx, hy⟩ := isNaN_of_le hxy
  obtain ⟨-, hz⟩ := isNaN_of_lt hyz
  rw [le_iff hx hy] at hxy
  rw [lt_iff hy hz] at hyz
  exact (lt_iff hx hz).mpr (hxy.trans_lt hyz)

theorem not_le_iff (hx : x.isNaN = false) (hy : y.isNaN = false) : ¬ x ≤ y ↔ y < x := by
  rw [le_iff hx hy, lt_iff hy hx, not_le]

end Order

section Arithmetic

variable {x y c : Float}

/-- What an operation yields that rounds `q` and packs it. -/
theorem of_rounds {q : ℚ} {u : UnpackedFloat} (h : Rounds q u)
    (hx : x.toModel.unpack = unpack binary64 (pack binary64 u)) :
    x.isNaN = false ∧ valueOf x = rounded q := by
  obtain ⟨hnumber, hvalue⟩ := h.unpack_pack
  unfold valueOf
  rw [hx]
  refine ⟨?_, hvalue⟩
  change x.toModel.unpack.isNaN = false
  rw [hx, hnumber]

theorem add_finite (hx : x.isFinite = true) (hc : c.isFinite = true) :
    (x + c).isNaN = false ∧ valueOf (x + c) = rounded (valueOf x + valueOf c) :=
  of_rounds (add_rounds (packed x) (packed c) hx hc) rfl

theorem sub_finite (hx : x.isFinite = true) (hc : c.isFinite = true) :
    (x - c).isNaN = false ∧ valueOf (x - c) = rounded (valueOf x - valueOf c) :=
  of_rounds (sub_rounds (packed x) (packed c) hx hc) rfl

theorem mul_finite (hx : x.isFinite = true) (hc : c.isFinite = true) :
    (x * c).isNaN = false ∧ valueOf (x * c) = rounded (valueOf x * valueOf c) :=
  of_rounds (mul_rounds (packed x) (packed c) hx hc) rfl

theorem div_finite (hx : x.isFinite = true) (hc : c.isFinite = true) (hne : valueOf c ≠ 0) :
    (x / c).isNaN = false ∧ valueOf (x / c) = rounded (valueOf x / valueOf c) :=
  of_rounds (div_rounds (packed x) (packed c) hx hc hne) rfl

/-- A function that leaves the infinite numbers as they are. -/
def Saturating (f : Float → Float) (g : ℚ → ℚ) : Prop :=
  ∀ x : Float, x.isNaN = false → (f x).isNaN = false ∧
    valueOf (f x) = if x.isFinite then g (valueOf x) else valueOf x

theorem infinite_cases (hx : x.isNaN = false) (hinf : x.isFinite = false) :
    valueOf x = -limit ∨ valueOf x = limit := by
  obtain ⟨hlow, hhigh⟩ := valueOf_bounds x
  rcases hlow.lt_or_eq with hlt | heq
  · rcases hhigh.lt_or_eq with hlt' | heq'
    · rw [(isFinite_iff hx).mpr ⟨hlt, hlt'⟩] at hinf
      cases hinf
    · exact .inr heq'
  · exact .inl heq.symm

/-- The infinite numbers are the ends of the order and stay there, so it is the finite ones that
matter. -/
theorem Saturating.mono {f : Float → Float} {g : ℚ → ℚ} (hf : Saturating f g) (hg : Monotone g)
    (h : x ≤ y) : f x ≤ f y := by
  obtain ⟨hx, hy⟩ := isNaN_of_le h
  obtain ⟨hfx, hvx⟩ := hf x hx
  obtain ⟨hfy, hvy⟩ := hf y hy
  rw [le_iff hx hy] at h
  rw [le_iff hfx hfy]
  cases hxf : x.isFinite with
  | false =>
    rw [hxf, if_neg Bool.false_ne_true] at hvx
    rcases infinite_cases hx hxf with hbottom | htop
    · rw [hvx, hbottom]
      exact (valueOf_bounds _).1
    · have hyf : y.isFinite = false := by
        by_contra hfinite
        have hlt := ((isFinite_iff hy).mp (by simpa using hfinite)).2
        linarith
      rw [hyf, if_neg Bool.false_ne_true] at hvy
      rwa [hvx, hvy]
  | true =>
    rw [hxf, if_pos rfl] at hvx
    cases hyf : y.isFinite with
    | false =>
      rw [hyf, if_neg Bool.false_ne_true] at hvy
      rcases infinite_cases hy hyf with hbottom | htop
      · have hlt := ((isFinite_iff hx).mp hxf).1
        linarith
      · rw [hvy, htop]
        exact (valueOf_bounds _).2
    | true =>
      rw [hyf, if_pos rfl] at hvy
      rw [hvx, hvy]
      exact hg h

/-- What an operation yields that hands on an infinite operand. -/
theorem of_infinity {s : Sign} (hx : x.toModel.unpack = .infinity s)
    (hy : y.toModel.unpack = unpack binary64 (pack binary64 (.infinity s))) :
    y.isNaN = false ∧ valueOf y = valueOf x := by
  rw [unpack_pack_infinity, ← hx] at hy
  refine ⟨?_, congrArg value hy⟩
  change y.toModel.unpack.isNaN = false
  rw [hy, hx]
  rfl

theorem exists_infinity (hx : x.isNaN = false) (hinf : x.isFinite = false) :
    ∃ s, x.toModel.unpack = .infinity s := by
  change x.toModel.unpack.isNaN = false at hx
  change x.toModel.unpack.isFinite = false at hinf
  cases hu : x.toModel.unpack with
  | infinity s => exact ⟨s, rfl⟩
  | notANumber => rw [hu] at hx; cases hx
  | zero | finite => rw [hu] at hinf; cases hinf

theorem add_saturating (hc : c.isFinite = true) :
    Saturating (· + c) fun q => rounded (q + valueOf c) := by
  intro x hx
  cases hxf : x.isFinite with
  | true => exact add_finite hxf hc
  | false =>
    obtain ⟨s, hs⟩ := exists_infinity hx hxf
    refine of_infinity hs ?_
    change unpack binary64 (pack binary64 (add binary64 x.toModel.unpack c.toModel.unpack)) = _
    change c.toModel.unpack.isFinite = true at hc
    rw [hs]
    cases hu : c.toModel.unpack with
    | notANumber | infinity => rw [hu] at hc; cases hc
    | zero | finite => rfl

protected theorem add_comm (x y : Float) : x + y = y + x := by
  have hcomm : add binary64 x.toModel.unpack y.toModel.unpack =
      add binary64 y.toModel.unpack x.toModel.unpack := by
    cases x.toModel.unpack <;> cases y.toModel.unpack <;> try rfl
    case infinity.infinity s s' => cases s <;> cases s' <;> rfl
    case zero.zero s s' => cases s <;> cases s' <;> rfl
    case finite.finite => simp only [add, min_comm, Int.add_comm]
  exact congrArg (fun u => Float.ofModel (.pack u)) hcomm

theorem mul_saturating (hc : c.isFinite = true) (hpos : 0 < valueOf c) :
    Saturating (· * c) fun q => rounded (q * valueOf c) := by
  intro x hx
  cases hxf : x.isFinite with
  | true => exact mul_finite hxf hc
  | false =>
    obtain ⟨s, hs⟩ := exists_infinity hx hxf
    refine of_infinity hs ?_
    change unpack binary64 (pack binary64 (mul binary64 x.toModel.unpack c.toModel.unpack)) = _
    change c.toModel.unpack.isFinite = true at hc
    unfold valueOf at hpos
    rw [hs]
    cases hu : c.toModel.unpack with
    | notANumber | infinity => rw [hu] at hc; cases hc
    | zero => rw [hu] at hpos; exact absurd hpos (lt_irrefl _)
    | @finite s' m e pos =>
      cases s' with
      | negative =>
        rw [hu, value, factor] at hpos
        have hmagnitude : 0 < (m : ℚ) * 2 ^ e := by positivity
        linarith
      | positive => cases s <;> rfl

/-- Adding a finite number keeps the order. -/
theorem add_mono (hc : c.isFinite = true) (h : x ≤ y) : x + c ≤ y + c :=
  (add_saturating hc).mono (fun _ _ hq => rounded_mono (add_le_add_left hq _)) h

/-- Multiplying with a positive finite number keeps the order. -/
theorem mul_mono (hc : c.isFinite = true) (hpos : 0 < valueOf c) (h : x ≤ y) : x * c ≤ y * c :=
  (mul_saturating hc hpos).mono
    (fun _ _ hq => rounded_mono (mul_le_mul_of_nonneg_right hq hpos.le)) h

end Arithmetic

/-- A count of ticks is rounded when it has more than 53 binary digits. -/
theorem ticks_spec {n : ℕ} (hn : n < tickLimit) :
    (ticks n).isNaN = false ∧ valueOf (ticks n) = rounded n := by
  have hcount : n.toUInt64.toNat = n := UInt64.toNat_ofNat_of_lt' hn
  refine of_rounds (ofNat_rounds n) ?_
  change unpack binary64 (pack binary64 (ofNat binary64 n.toUInt64.toNat)) = _
  rw [hcount]

theorem ticks_mono {m n : ℕ} (h : m ≤ n) (hn : n < tickLimit) : ticks m ≤ ticks n := by
  obtain ⟨hnan, hm⟩ := ticks_spec (h.trans_lt hn)
  obtain ⟨hnan', hn⟩ := ticks_spec hn
  rw [le_iff hnan hnan', hm, hn]
  exact rounded_mono (by exact_mod_cast h)

theorem rounded_two_pow {k : ℕ} (hk : k < 1024) : rounded (2 ^ k) = 2 ^ k := by
  have hcanonical : Canonical (2 ^ 52) (k - 52) := ⟨by norm_num, by omega, fun _ => le_rfl⟩
  have hvalue : ((2 ^ 52 : ℕ) : ℚ) * 2 ^ ((k : ℤ) - 52) = 2 ^ k := by
    rw [zpow_sub₀ (by norm_num), zpow_natCast]
    push_cast
    ring
  have hmagnitude := hcanonical.magnitude_eq (by norm_num)
  have hlt := hcanonical.lt_limit (by omega)
  rw [hvalue] at hmagnitude hlt
  rw [rounded_of_nonneg (by positivity), hmagnitude, min_eq_left hlt.le]

theorem ticks_isFinite {n : ℕ} (hn : n < tickLimit) : (ticks n).isFinite = true := by
  obtain ⟨hnan, hvalue⟩ := ticks_spec hn
  have hlow : 0 ≤ rounded (n : ℚ) := rounded_nonneg n.cast_nonneg
  have hhigh : rounded (n : ℚ) ≤ 2 ^ 64 := by
    rw [← rounded_two_pow (by norm_num)]
    exact rounded_mono (by exact_mod_cast hn.le)
  have hroom : (2 ^ 64 : ℚ) < limit := by
    unfold limit
    rw [← zpow_natCast]
    exact zpow_lt_zpow_right₀ (by norm_num) (by norm_num)
  rw [isFinite_iff hnan, hvalue]
  constructor <;> linarith [limit_pos]

theorem one_le_ticks {n : ℕ} (hpos : 0 < n) (hn : n < tickLimit) : 1 ≤ valueOf (ticks n) := by
  rw [(ticks_spec hn).2]
  have hone : rounded ((1 : ℕ) : ℚ) = 1 := by
    have h := rounded_two_pow (k := 0) (by norm_num)
    simpa using h
  rw [← hone]
  exact rounded_mono (by exact_mod_cast hpos)

end Sequencer.Binary64
