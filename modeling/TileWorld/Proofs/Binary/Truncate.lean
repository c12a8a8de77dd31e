import TileWorld.Proofs.Binary.Arithmetic
import TileWorld.Proofs.Binary.Order

/-! Floats as numbers of a bounded range, and the whole numbers that they are cut down to. -/

namespace TileWorld.Binary
open Float.Model Float.Model.UnpackedFloat

theorem mul_zpow_le {m : ℕ} {e : ℤ} (hm : m < 2 ^ 53) (he : e ≤ 971) :
    (m : ℚ) * 2 ^ e ≤ 2 ^ 1024 - 2 ^ 971 := by
  have hm' : (m : ℚ) ≤ 2 ^ 53 - 1 := by
    rw [le_sub_iff_add_le]
    exact_mod_cast hm
  calc (m : ℚ) * 2 ^ e ≤ (2 ^ 53 - 1) * 2 ^ e := mul_le_mul_of_nonneg_right hm' (by positivity)
    _ ≤ (2 ^ 53 - 1) * 2 ^ ((971 : ℕ) : ℤ) := by
      apply mul_le_mul_of_nonneg_left _ (by norm_num)
      exact zpow_le_zpow_right₀ (by norm_num) (by exact_mod_cast he)
    _ = 2 ^ 1024 - 2 ^ 971 := by
      rw [zpow_natCast, sub_mul, one_mul, ← pow_add]

/-- The largest float lies a spacing below the least power of two that is too large. -/
theorem abs_le_of_value? {x : Float} {q : ℚ} (h : value? x = some q) :
    |q| ≤ 2 ^ 1024 - 2 ^ 971 := by
  rw [value?_eq_fields, fields?] at h
  have hfraction : x.toBits.toNat % 2 ^ 52 < 2 ^ 52 := Nat.mod_lt _ (by norm_num)
  have hbiased : x.toBits.toNat / 2 ^ 52 % 2 ^ 11 < 2 ^ 11 := Nat.mod_lt _ (by norm_num)
  generalize x.toBits.toNat % 2 ^ 52 = fraction at *
  generalize x.toBits.toNat / 2 ^ 52 % 2 ^ 11 = biased at *
  split at h
  · cases h
  · split at h
    · cases h
      rw [abs_signed _ (by positivity)]
      exact mul_zpow_le (by omega) (by norm_num)
    · cases h
      rw [abs_signed _ (by positivity)]
      exact mul_zpow_le (by omega) (by omega)

theorem nearest?_eq {q : ℚ} (hq : |nearest q| < 2 ^ 1024) : nearest? q = some (nearest q) :=
  if_pos hq

theorem nearest_of_nearest? {q r : ℚ} (h : nearest? q = some r) : nearest q = r :=
  Option.some_inj.1 (Option.ite_none_right_eq_some.1 h).2

section
variable {x : Float} {q : ℚ} (h : value? x = some q)
include h

theorem nearest_of_value? : nearest q = q := by
  obtain ⟨hf, rfl⟩ := canonical_of_value? h
  exact hf.roundsTo.rational_eq.symm

/-- A number that is rounded to itself is a float of its own. -/
theorem nearest?_of_value? : nearest? q = some q := by
  have hself := nearest_of_value? h
  have hbound : |q| < 2 ^ 1024 :=
    (abs_le_of_value? h).trans_lt (sub_lt_self _ (by positivity))
  rw [nearest?_eq (by rwa [hself]), hself]

/-- A float is a whole multiple of a power of two, with a mantissa of 53 digits unless the power is
the least one. -/
theorem exists_mantissa (hq : 0 ≤ q) :
    ∃ (m : ℕ) (e : ℤ), q = m * 2 ^ e ∧ m < 2 ^ 53 ∧ (2 ^ 52 ≤ m ∨ e = -1074) := by
  obtain ⟨hf, rfl⟩ := canonical_of_value? h
  rcases hf.shape with ⟨s, hs⟩ | ⟨s, m, e, hm, hs⟩
  · refine ⟨0, -1074, ?_, by norm_num, Or.inr rfl⟩
    rw [hs, rational_zero, Nat.cast_zero, zero_mul]
  · rw [hs] at hf hq ⊢
    refine ⟨m, e, ?_, hf.1, hf.2.2⟩
    have hpos : (0 : ℚ) < m * 2 ^ e := by positivity
    cases s with
    | negative => exact absurd hq (not_le.2 (neg_lt_zero.2 hpos))
    | positive => rfl

theorem value?_neg : value? (-x) = some (-q) := by
  obtain ⟨hf, hrational⟩ := canonical_of_value? h
  have hneg : RoundsTo x.toModel.unpack.neg (-q) := by
    rw [← hrational, ← hf.neg.2]
    exact hf.neg.1.roundsTo
  have hself : nearest? (-q) = some (-q) := by
    rw [nearest?, nearest_neg, abs_neg, nearest_of_value? h]
    exact if_pos ((abs_le_of_value? h).trans_lt (by norm_num))
  rw [value?_eq, ← hself]
  exact unpacked?_pack hneg

end

/-- Nothing is lost when a float is added to zero, were it infinite or no number. -/
theorem zero_add_cases (x : Float) : (∃ q, value? x = some q ∧ value? (0 + x) = some q) ∨
    (0 + x).toModel.unpack = x.toModel.unpack := by
  cases hx : value? x with
  | some q =>
    refine Or.inl ⟨q, rfl, ?_⟩
    rw [value?_add value?_zero hx, zero_add, nearest?_of_value? hx]
  | none => exact Or.inr (unpack_add_of_none_right value?_zero hx)

theorem zero_add_pos_iff {x : Float} : 0 < 0 + x ↔ 0 < x := by
  rcases zero_add_cases x with ⟨q, hx, hsum⟩ | hsum
  · rw [lt_iff value?_zero hx, lt_iff value?_zero hsum]
  · change decide ((0 : Float).toModel.unpack.lt (0 + x).toModel.unpack = true) = true ↔ _
    rw [hsum]
    rfl

/-- A float as large as that is a multiple of one half. -/
theorem exists_int_of_le_abs {x : Float} {q : ℚ} (h : value? x = some q) (hq : 2 ^ 51 ≤ |q|) :
    ∃ n : ℤ, 2 * q = n := by
  have hpositive {x : Float} {q : ℚ} (h : value? x = some q) (hq : 2 ^ 51 ≤ q) :
      ∃ n : ℤ, 2 * q = n := by
    obtain ⟨m, e, rfl, hm, -⟩ := exists_mantissa h (by linarith)
    have hm' : (m : ℚ) < 2 ^ 53 := by exact_mod_cast hm
    rcases lt_or_ge e (-1) with he | he
    · have hpow : (2 : ℚ) ^ e ≤ 2 ^ (-2 : ℤ) := zpow_le_zpow_right₀ (by norm_num) (by omega)
      have hlt : (m : ℚ) * 2 ^ e < 2 ^ 53 * 2 ^ (-2 : ℤ) :=
        mul_lt_mul hm' hpow (by positivity) (by positivity)
      norm_num at hq hlt
      linarith
    · obtain ⟨k, hk⟩ := Int.eq_ofNat_of_zero_le (by omega : 0 ≤ e + 1)
      refine ⟨m * 2 ^ k, ?_⟩
      rw [Int.cast_mul, Int.cast_natCast, Int.cast_pow, Int.cast_ofNat, ← zpow_natCast, ← hk,
        zpow_add_one₀ (by norm_num)]
      ring
  rcases le_total 0 q with h0 | h0
  · rw [abs_of_nonneg h0] at hq
    exact hpositive h hq
  · rw [abs_of_nonpos h0] at hq
    obtain ⟨n, hn⟩ := hpositive (value?_neg h) hq
    exact ⟨-n, by push_cast; linarith⟩

theorem roundToInt_spec (s : Sign) (m : ℕ) (e : ℤ) :
    UnpackedFloat.roundToInt s m e = s.apply (⌊(m * 2 ^ e : ℚ)⌋₊ : ℤ) := by
  obtain ⟨m', hdecrease, hvalue⟩ := decreaseExponent_spec m e 0
  obtain ⟨n, hn⟩ := Int.eq_ofNat_of_zero_le (sub_nonneg.2 (min_le_right e 0))
  have hnat : (0 - min e 0).toNat = n := by omega
  have htells := (tells_exact m').shiftRight n
  have hdiv : (m' : ℚ) / 2 ^ n = m * 2 ^ e := by
    rw [← hvalue, div_eq_iff (by positivity), mul_assoc, ← zpow_natCast, ← zpow_add₀ (by norm_num)]
    rw [show min e 0 + (n : ℤ) = 0 by omega, zpow_zero, mul_one]
  rw [hdiv] at htells
  have hfloor : ⌊(m * 2 ^ e : ℚ)⌋₊ =
      (ExtendedMantissa.ofMantissaAndAccuracy m' .exact >>> n).mantissa := by
    rw [← Int.floor_toNat, htells.floor_eq, Int.toNat_natCast]
  rw [UnpackedFloat.roundToInt, hdecrease, hfloor]
  simp only [shiftToExponent, hnat]

theorem toNat_ofNatClamp (n : ℕ) : (UInt64.ofNatClamp n).toNat = min n (2 ^ 64 - 1) := by
  unfold UInt64.ofNatClamp
  split
  · next h =>
    have hn : n < 2 ^ 64 := h
    rw [UInt64.toNat_ofNatLT]
    omega
  · next h =>
    have hn : ¬ n < 2 ^ 64 := h
    rw [UInt64.toNat_ofNatLT, UInt64.size]
    omega

theorem toNat_toUInt64 {x : Float} {q : ℚ} (h : value? x = some q) (hq : 0 ≤ q) :
    x.toUInt64.toNat = min ⌊q⌋₊ (2 ^ 64 - 1) := by
  obtain ⟨hf, rfl⟩ := canonical_of_value? h
  have hfloor : (UnpackedFloat.toInt 0 (UInt64.size - 1) x.toModel.unpack).toNat =
      ⌊rational x.toModel.unpack⌋₊ := by
    rcases hf.shape with ⟨s, hs⟩ | ⟨s, m, e, hm, hs⟩
    · rw [hs, rational_zero, Nat.floor_zero]
      rfl
    · rw [hs] at hq ⊢
      have hpos : (0 : ℚ) < m * 2 ^ e := by positivity
      cases s with
      | negative => exact absurd hq (not_le.2 (neg_lt_zero.2 hpos))
      | positive =>
        rw [UnpackedFloat.toInt, roundToInt_spec]
        rfl
  change (UInt64.ofNatClamp (UnpackedFloat.toInt 0 (UInt64.size - 1) x.toModel.unpack).toNat).toNat
    = _
  rw [toNat_ofNatClamp, hfloor]

end TileWorld.Binary
