import Sequencer.Proofs.Float.Rounding

namespace Sequencer.Binary64

open Float.Model (UnpackedFloat)
open Float.Model.UnpackedFloat
open Float.Model.Format (binary64)

def factor : Sign → ℚ
  | .negative => -1
  | .positive => 1

/-- What a float stands for. -/
def value : UnpackedFloat → ℚ
  | .infinity s => factor s * limit
  | .finite s m e _ => factor s * (m * 2 ^ e)
  | _ => 0

@[simp] theorem value_zero (s : Sign) : value (.zero s) = 0 := rfl

/-- What 64 bits can hold. -/
inductive Packed : UnpackedFloat → Prop
  | notANumber : Packed .notANumber
  | infinity (s : Sign) : Packed (.infinity s)
  | zero (s : Sign) : Packed (.zero s)
  | finite {s : Sign} {m : ℕ} {e : ℤ} {pos : 0 < m} (canonical : Canonical m e) (fits : e ≤ 971) :
      Packed (.finite s m e pos)

theorem toNat_one_append {w : ℕ} (v : BitVec w) : (1#1 ++ v).toNat = 2 ^ w + v.toNat := by
  rw [BitVec.toNat_append, ← Nat.shiftLeft_add_eq_or_of_lt v.isLt]
  simp [Nat.shiftLeft_eq]

theorem packed_unpack (b : BitVec binary64.numBits) : Packed (unpack binary64 b) := by
  have hfraction : (unpackMantissa b).toNat < 2 ^ 52 := (unpackMantissa b).isLt
  have hfield : (unpackExponent b).toNat < 2 ^ 11 := (unpackExponent b).isLt
  have hexponent : ((unpackExponent b).toNat : ℤ) - (binary64.exponentBias + (52 : ℕ)) =
      (unpackExponent b).toNat - 1075 := rfl
  have hmantissa : (1#1 ++ unpackMantissa b).toNat = 2 ^ 52 + (unpackMantissa b).toNat :=
    toNat_one_append _
  simp only [unpack, hexponent]
  split
  case isTrue hones =>
    split
    · exact .infinity _
    · exact .notANumber
  case isFalse hones =>
    have htop : (unpackExponent b).toNat ≠ 2047 := fun h => hones (BitVec.eq_of_toNat_eq h)
    split
    case isTrue hzeros =>
      have hbottom : (unpackExponent b).toNat = 0 := congrArg BitVec.toNat hzeros
      split
      · exact .zero _
      · exact .finite ⟨by omega, by omega, by omega⟩ (by omega)
    case isFalse hzeros =>
      have hbottom : (unpackExponent b).toNat ≠ 0 := fun h => hzeros (BitVec.eq_of_toNat_eq h)
      exact .finite ⟨by omega, by omega, by omega⟩ (by omega)

theorem unpackSign_packComponents (s : Sign) (e : BitVec 11) (m : BitVec 52) :
    Sign.ofBitVec (unpackSign (packComponents binary64 s e m)) = s := by
  simp only [unpackSign, packComponents, BitVec.extractLsb]
  rw [BitVec.extractLsb'_append_eq_of_le (by omega), BitVec.extractLsb'_append_eq_of_le (by omega)]
  cases s <;> rfl

theorem biased_eq (e : ℤ) :
    e + binary64.exponentBias + (52 : ℕ) = e + 1075 := by
  change e + 1023 + 52 = _
  omega

theorem unpack_pack_normal {s : Sign} {m : ℕ} {e : ℤ} {pos : 0 < m} (hlow : 2 ^ 52 ≤ m)
    (hhigh : m < 2 ^ 53) (hleast : -1074 ≤ e) (hfits : e ≤ 971) :
    unpack binary64 (pack binary64 (.finite s m e pos)) = .finite s m e pos := by
  have hroom : ¬ 2 ^ 11 ≤ (e + 1075).toNat + 1 := by omega
  have hlog : m.log2 + 1 = binary64.mantissaBits := by
    have hle := (Nat.le_log2 pos.ne').mpr hlow
    have hlt := (Nat.log2_lt pos.ne').mpr hhigh
    change _ = 53
    omega
  have hfield : (BitVec.ofNat 11 (e + 1075).toNat).toNat = (e + 1075).toNat := by
    rw [BitVec.toNat_ofNat, Nat.mod_eq_of_lt (by omega)]
  have htop : BitVec.ofNat 11 (e + 1075).toNat ≠ -1#11 := fun heq => by
    have hones : (e + 1075).toNat = 2047 := hfield.symm.trans (congrArg BitVec.toNat heq)
    omega
  have hbottom : BitVec.ofNat 11 (e + 1075).toNat ≠ 0#11 := fun heq => by
    have hzeros : (e + 1075).toNat = 0 := hfield.symm.trans (congrArg BitVec.toNat heq)
    omega
  have hmantissa : (1#1 ++ BitVec.ofNat 52 m).toNat = m := by
    rw [toNat_one_append, BitVec.toNat_ofNat]
    omega
  have hexponent : ((e + 1075).toNat : ℤ) - (binary64.exponentBias + (52 : ℕ)) = e := by
    change _ - (1023 + 52) = e
    omega
  simp only [pack, biased_eq, hroom, hlog, ↓reduceIte, unpack, unpackMantissa_packComponents,
    unpackExponent_packComponents, unpackSign_packComponents, htop, hbottom, hmantissa, hfield,
    hexponent]

theorem unpack_pack_subnormal {s : Sign} {m : ℕ} {pos : 0 < m} (hhigh : m < 2 ^ 52) :
    unpack binary64 (pack binary64 (.finite s m (-1074) pos)) = .finite s m (-1074) pos := by
  have hroom : ¬ 2 ^ 11 ≤ (-1074 + 1075 : ℤ).toNat + 1 := by decide
  have hlog : m.log2 + 1 ≠ binary64.mantissaBits := by
    have hlt := (Nat.log2_lt pos.ne').mpr hhigh
    change _ ≠ 53
    omega
  have hmantissa : (BitVec.ofNat 52 m).toNat = m := by
    rw [BitVec.toNat_ofNat, Nat.mod_eq_of_lt hhigh]
  have hfraction : BitVec.ofNat 52 m ≠ 0#52 := fun heq =>
    pos.ne' (hmantissa.symm.trans (congrArg BitVec.toNat heq))
  have htop : (0#11 : BitVec 11) ≠ -1#11 := by decide
  have hexponent : ((0#11).toNat : ℤ) - (binary64.exponentBias + (52 : ℕ)) + 1 = -1074 := rfl
  simp only [pack, biased_eq, hroom, hlog, ↓reduceIte, unpack, unpackMantissa_packComponents,
    unpackExponent_packComponents, unpackSign_packComponents, htop, hfraction, ↓reduceDIte,
    hmantissa, hexponent]

theorem unpack_pack_finite {s : Sign} {m : ℕ} {e : ℤ} {pos : 0 < m} (h : Canonical m e)
    (hfits : e ≤ 971) :
    unpack binary64 (pack binary64 (.finite s m e pos)) = .finite s m e pos := by
  by_cases hlow : 2 ^ 52 ≤ m
  · exact unpack_pack_normal hlow h.narrow h.least hfits
  · have he : e = -1074 := by
      have hleast := h.least
      by_contra hne
      exact hlow (h.full (by omega))
    subst he
    exact unpack_pack_subnormal (by omega)

theorem unpack_pack_infinity (s : Sign) :
    unpack binary64 (pack binary64 (.infinity s)) = .infinity s := by
  cases s <;> rfl

theorem unpack_pack_zero (s : Sign) : unpack binary64 (pack binary64 (.zero s)) = .zero s := by
  cases s <;> rfl

theorem unpack_pack_too_large {s : Sign} {m : ℕ} {e : ℤ} {pos : 0 < m} (hlarge : 971 < e) :
    unpack binary64 (pack binary64 (.finite s m e pos)) = .infinity s := by
  have hroom : 2 ^ 11 ≤ (e + 1075).toNat + 1 := by omega
  have hpack : pack binary64 (.finite s m e pos) = pack binary64 (.infinity s) := by
    simp only [pack, biased_eq, hroom, ↓reduceIte]
  rw [hpack, unpack_pack_infinity]

theorem Canonical.lt_limit {m : ℕ} {e : ℤ} (h : Canonical m e) (hfits : e ≤ 971) :
    (m : ℚ) * 2 ^ e < limit := by
  have hm : (m : ℚ) < 2 ^ (53 : ℤ) := by exact_mod_cast h.narrow
  calc (m : ℚ) * 2 ^ e < 2 ^ (53 : ℤ) * 2 ^ e := by gcongr
    _ ≤ 2 ^ (53 : ℤ) * 2 ^ (971 : ℤ) := by gcongr; norm_num
    _ = limit := by rw [← zpow_add₀ (by norm_num)]; rfl

theorem Canonical.limit_le {m : ℕ} {e : ℤ} (h : Canonical m e) (hlarge : 971 < e) :
    limit ≤ (m : ℚ) * 2 ^ e := by
  have hm : (2 ^ (52 : ℤ) : ℚ) ≤ m := by exact_mod_cast h.full (by omega)
  calc limit = 2 ^ (52 : ℤ) * 2 ^ (972 : ℤ) := by rw [← zpow_add₀ (by norm_num)]; rfl
    _ ≤ 2 ^ (52 : ℤ) * 2 ^ e := by
      gcongr
      · norm_num
      · omega
    _ ≤ m * 2 ^ e := by gcongr

/-- Packing keeps a number that is not too large. -/
theorem Stands.unpack_pack {s : Sign} {x : ℚ} {u : UnpackedFloat} (h : Stands s x u) :
    (unpack binary64 (pack binary64 u)).isNaN = false ∧
      value (unpack binary64 (pack binary64 u)) = factor s * min x limit := by
  cases h with
  | zero hx =>
    rw [unpack_pack_zero, hx, min_eq_left limit_pos.le, mul_zero]
    exact ⟨rfl, rfl⟩
  | @finite m e pos canonical hx =>
    rcases le_or_gt e 971 with hfits | hlarge
    · rw [unpack_pack_finite canonical hfits, hx, min_eq_left (canonical.lt_limit hfits).le]
      exact ⟨rfl, rfl⟩
    · rw [unpack_pack_too_large hlarge, hx, min_eq_right (canonical.limit_le hlarge)]
      exact ⟨rfl, rfl⟩

theorem Canonical.lt_of_exponent_lt {m m' : ℕ} {e e' : ℤ} (h : Canonical m e)
    (h' : Canonical m' e') (hlt : e < e') : (m : ℚ) * 2 ^ e < m' * 2 ^ e' := by
  have hleast := h.least
  have hm : (m : ℚ) < 2 ^ (53 : ℤ) := by exact_mod_cast h.narrow
  have hm' : (2 ^ (52 : ℤ) : ℚ) ≤ m' := by exact_mod_cast h'.full (by omega)
  calc (m : ℚ) * 2 ^ e < 2 ^ (53 : ℤ) * 2 ^ e := by gcongr
    _ = 2 ^ (52 : ℤ) * 2 ^ (e + 1) := by
      rw [← zpow_add₀ (by norm_num), ← zpow_add₀ (by norm_num)]; congr 1; omega
    _ ≤ 2 ^ (52 : ℤ) * 2 ^ e' := by
      gcongr
      · norm_num
      · omega
    _ ≤ m' * 2 ^ e' := by gcongr

/-- Canonical numbers compare by their exponents first. -/
theorem Canonical.compare_eq {m m' : ℕ} {e e' : ℤ} (h : Canonical m e) (h' : Canonical m' e') :
    (compare e e').then (compare m m') = compare ((m : ℚ) * 2 ^ e) (m' * 2 ^ e') := by
  rcases lt_trichotomy e e' with hlt | rfl | hgt
  · rw [compare_lt_iff_lt.mpr hlt, compare_lt_iff_lt.mpr (h.lt_of_exponent_lt h' hlt)]
    rfl
  · have hpos : (0 : ℚ) < 2 ^ e := by positivity
    rw [compare_eq_iff_eq.mpr rfl, Ordering.eq_then]
    rcases lt_trichotomy m m' with hlt | rfl | hgt
    · rw [compare_lt_iff_lt.mpr hlt, compare_lt_iff_lt.mpr (by gcongr)]
    · rw [compare_eq_iff_eq.mpr rfl, compare_eq_iff_eq.mpr rfl]
    · rw [compare_gt_iff_gt.mpr hgt, compare_gt_iff_gt.mpr (by gcongr)]
  · rw [compare_gt_iff_gt.mpr hgt, compare_gt_iff_gt.mpr (h'.lt_of_exponent_lt h hgt)]
    rfl

theorem compare_neg (x y : ℚ) : compare (-1 * x) (-1 * y) = (compare x y).swap := by
  rcases lt_trichotomy x y with hlt | rfl | hgt
  · rw [compare_lt_iff_lt.mpr hlt, compare_gt_iff_gt.mpr (by linarith)]
    rfl
  · rw [compare_eq_iff_eq.mpr rfl, compare_eq_iff_eq.mpr rfl]
    rfl
  · rw [compare_gt_iff_gt.mpr hgt, compare_lt_iff_lt.mpr (by linarith)]
    rfl

/-- The magnitude of a finite number lies between zero and the infinite ones. -/
theorem Packed.value_bounds {u : UnpackedFloat} (h : Packed u) :
    -limit ≤ value u ∧ value u ≤ limit ∧
      (u.isFinite = true → -limit < value u ∧ value u < limit) := by
  have hlimit := limit_pos
  cases h with
  | notANumber | zero => simp only [value]; refine ⟨?_, ?_, fun _ => ⟨?_, ?_⟩⟩ <;> linarith
  | infinity s =>
    cases s <;> simp only [value, factor] <;>
      refine ⟨by linarith, by linarith, fun hfinite => ?_⟩ <;> cases hfinite
  | @finite s m e pos canonical fits =>
    have hlow : 0 < (m : ℚ) * 2 ^ e := by positivity
    have hhigh := canonical.lt_limit fits
    cases s <;> simp only [value, factor] <;> refine ⟨?_, ?_, fun _ => ⟨?_, ?_⟩⟩ <;> linarith

/-- Numbers compare by what they stand for. -/
theorem Packed.compare_eq {u v : UnpackedFloat} (hu : Packed u) (hv : Packed v)
    (hu' : u.isNaN = false) (hv' : v.isNaN = false) :
    u.compare v = some (compare (value u) (value v)) := by
  have hlimit := limit_pos
  have hbounds := hu.value_bounds.2.2
  have hbounds' := hv.value_bounds.2.2
  have hlt {x y : ℚ} (h : x < y) : some Ordering.lt = some (compare x y) := by
    rw [compare_lt_iff_lt.mpr h]
  have hgt {x y : ℚ} (h : y < x) : some Ordering.gt = some (compare x y) := by
    rw [compare_gt_iff_gt.mpr h]
  have heq {x : ℚ} : some Ordering.eq = some (compare x x) := by rw [compare_eq_iff_eq.mpr rfl]
  cases hu with
  | notANumber => cases hu'
  | infinity s =>
    cases hv with
    | notANumber => cases hv'
    | infinity s' =>
      cases s <;> cases s'
      · exact heq
      · exact hlt (by simp only [value, factor]; linarith)
      · exact hgt (by simp only [value, factor]; linarith)
      · exact heq
    | zero | finite =>
      obtain ⟨hlow, hhigh⟩ := hbounds' rfl
      cases s
      · exact hlt (by simpa only [value, factor, neg_one_mul] using hlow)
      · exact hgt (by simpa only [value, factor, one_mul] using hhigh)
  | zero s =>
    cases hv with
    | notANumber => cases hv'
    | infinity s' =>
      cases s'
      · exact hgt (by simp only [value, factor]; linarith)
      · exact hlt (by simp only [value, factor]; linarith)
    | zero s' => exact heq
    | @finite s' m' e' pos' canonical' =>
      have hpos' : 0 < (m' : ℚ) * 2 ^ e' := by positivity
      cases s'
      · exact hgt (by simp only [value, factor]; linarith)
      · exact hlt (by simp only [value, factor]; linarith)
  | @finite s m e pos canonical =>
    have hpos : 0 < (m : ℚ) * 2 ^ e := by positivity
    obtain ⟨hlow, hhigh⟩ := hbounds rfl
    cases hv with
    | notANumber => cases hv'
    | infinity s' =>
      cases s'
      · cases s <;> exact hgt (by simpa only [value, factor, neg_one_mul] using hlow)
      · cases s <;> exact hlt (by simpa only [value, factor, one_mul] using hhigh)
    | zero s' =>
      cases s
      · exact hlt (by simp only [value, factor]; linarith)
      · exact hgt (by simp only [value, factor]; linarith)
    | @finite s' m' e' pos' canonical' =>
      have hpos' : 0 < (m' : ℚ) * 2 ^ e' := by positivity
      have hcompare := canonical.compare_eq canonical'
      cases s <;> cases s' <;> simp only [UnpackedFloat.compare, value, factor]
      · rw [hcompare, compare_neg]
      · exact hlt (by linarith)
      · exact hgt (by linarith)
      · rw [hcompare, one_mul, one_mul]

end Sequencer.Binary64
