import Mathlib
import TileWorld.Proofs.Binary.Mantissa

/-! Rounding as float arithmetic does it, in mantissas and exponents, finds the nearest float. -/

namespace TileWorld.Binary
open Float.Model Float.Model.UnpackedFloat

/-- A mantissa of at most 53 digits, with fewer than 53 only at the least exponent. -/
def Canonical : UnpackedFloat → Prop
  | .zero _ => True
  | .finite _ m e _ => m < 2 ^ 53 ∧ -1074 ≤ e ∧ (2 ^ 52 ≤ m ∨ e = -1074)
  | _ => False

def signed : Sign → ℚ → ℚ
  | .negative, q => -q
  | .positive, q => q

/-- The number that a finite float stands for. -/
def rational : UnpackedFloat → ℚ
  | .finite s m e _ => signed s (m * 2 ^ e)
  | _ => 0

/-- A canonical float nearest to a number, whose exponent may be too large to be stored. -/
structure RoundsTo (f : UnpackedFloat) (q : ℚ) : Prop where
  canonical : Canonical f
  rational_eq : rational f = nearest q

theorem nearest_signed {s : Sign} {q : ℚ} (hq : 0 ≤ q) :
    nearest (signed s q) = signed s (nearestPositive q) := by
  have h : nearest q = nearestPositive q := if_pos hq
  cases s with
  | negative => exact (nearest_neg q).trans (congrArg (- ·) h)
  | positive => exact h

theorem targetExponent_eq (t : ℤ) : Format.binary64.targetExponent t = max (t - 53) (-1074) := rfl

section
variable {m : ℕ} {e : ℤ} {acc : Accuracy} {q : ℚ}

theorem mantissa_ofMantissaAndAccuracy (m : ℕ) (acc : Accuracy) :
    (ExtendedMantissa.ofMantissaAndAccuracy m acc).mantissa = m := by
  unfold ExtendedMantissa.ofMantissaAndAccuracy
  split <;> rfl

theorem log_eq_of_tells (hm : m ≠ 0) (h : Tells (.ofMantissaAndAccuracy m acc) (q / 2 ^ e)) :
    Int.log 2 q = m.log2 + e := by
  have hl := h.lower
  have hu := h.upper
  rw [mantissa_ofMantissaAndAccuracy, le_div_iff₀ (by positivity)] at hl
  rw [mantissa_ofMantissaAndAccuracy, div_lt_iff₀ (by positivity)] at hu
  have hpow : (2 : ℚ) ^ m.log2 ≤ m := by exact_mod_cast Nat.log2_self_le hm
  have hpow' : (m : ℚ) + 1 ≤ 2 ^ (m.log2 + 1) := by exact_mod_cast Nat.lt_log2_self
  have hq : 0 < q := lt_of_lt_of_le (by positivity) hl
  apply le_antisymm
  · rw [← Int.lt_add_one_iff, ← Int.lt_zpow_iff_log_lt (by norm_num) hq]
    calc q < (m + 1) * 2 ^ e := hu
      _ ≤ 2 ^ (m.log2 + 1) * 2 ^ e := mul_le_mul_of_nonneg_right hpow' (by positivity)
      _ = (2 : ℚ) ^ ((m.log2 : ℤ) + e + 1) := by
        rw [← zpow_natCast, ← zpow_add₀ (by norm_num)]
        congr 1
        push_cast
        ring
  · rw [← Int.zpow_le_iff_le_log (by norm_num) hq]
    calc (2 : ℚ) ^ ((m.log2 : ℤ) + e) = 2 ^ m.log2 * 2 ^ e := by
          rw [zpow_add₀ (by norm_num), zpow_natCast]
      _ ≤ m * 2 ^ e := mul_le_mul_of_nonneg_right hpow (by positivity)
      _ ≤ q := hl

/-- The exponent that the mantissa is shifted to is that of the floats around the number. -/
theorem targetExponent_of_tells (hq : 0 < q)
    (h : Tells (.ofMantissaAndAccuracy m acc) (q / 2 ^ e)) (hm : m ≠ 0 ∨ e ≤ spacing q) :
    Format.binary64.targetExponent (totalExponent m e) = spacing q := by
  rw [targetExponent_eq, totalExponent]
  -- if nothing but residual bits is left of the mantissa, the exponent is the least one
  by_cases hm0 : m = 0
  · subst hm0
    have hu := h.upper
    rw [mantissa_ofMantissaAndAccuracy, Nat.cast_zero, zero_add, div_lt_one (by positivity)] at hu
    have hlog : Int.log 2 q < e :=
      (Int.lt_zpow_iff_log_lt (by norm_num) hq).1 (by exact_mod_cast hu)
    have he : e ≤ spacing q := hm.resolve_left fun h0 => h0 rfl
    unfold spacing at *
    rw [Nat.log2_zero]
    omega
  · rw [spacing, log_eq_of_tells hm0 h]
    omega

theorem shiftToTargetExponent_of_tells (hq : 0 < q)
    (h : Tells (.ofMantissaAndAccuracy m acc) (q / 2 ^ e)) (he : e ≤ spacing q) :
    ∃ em, shiftToTargetExponent Format.binary64 m e acc = (em, spacing q) ∧
      Tells em (q / 2 ^ spacing q) := by
  have ht := targetExponent_of_tells hq h (Or.inr he)
  obtain ⟨n, hn⟩ := Int.eq_ofNat_of_zero_le (sub_nonneg.2 he)
  refine ⟨ExtendedMantissa.ofMantissaAndAccuracy m acc >>> n, ?_, ?_⟩
  · have hnat : (spacing q - e).toNat = n := by omega
    have hsum : e + n = spacing q := by omega
    simp only [shiftToTargetExponent, ht, shiftToExponent, hnat, hsum]
  · have hdiv : q / 2 ^ spacing q = q / 2 ^ e / 2 ^ n := by
      rw [div_div, ← zpow_natCast, ← zpow_add₀ (by norm_num), ← hn, add_sub_cancel]
    rw [hdiv]
    exact h.shiftRight n

end

theorem shiftToTargetExponent_exact {m : ℕ} {e : ℤ} (hm : m ≤ 2 ^ 53) (he : -1074 ≤ e)
    (hn : 2 ^ 52 ≤ m ∨ e = -1074) :
    ∃ em e', shiftToTargetExponent Format.binary64 m e .exact = (em, e') ∧
      (em.mantissa : ℚ) * 2 ^ e' = m * 2 ^ e ∧
      em.mantissa < 2 ^ 53 ∧ -1074 ≤ e' ∧ (2 ^ 52 ≤ em.mantissa ∨ e' = -1074) := by
  rcases Nat.lt_or_eq_of_le hm with hlt | rfl
  · have hlog : m.log2 < 53 := by
      by_cases h0 : m = 0
      · simp [h0]
      · exact (Nat.log2_lt h0).2 hlt
    have hshift : (Format.binary64.targetExponent (totalExponent m e) - e).toNat = 0 := by
      rw [targetExponent_eq, totalExponent]
      omega
    refine ⟨_, _, rfl, ?_⟩
    simp only [hshift]
    rw [Nat.cast_zero, add_zero]
    exact ⟨rfl, hlt, he, hn⟩
  · -- one digit too long: the second shift takes it off, and it is a zero
    have hshift : (Format.binary64.targetExponent (totalExponent (2 ^ 53) e) - e).toNat = 1 := by
      rw [targetExponent_eq, totalExponent, Nat.log2_two_pow]
      omega
    refine ⟨_, _, rfl, ?_⟩
    simp only [hshift]
    have hm : (ExtendedMantissa.ofMantissaAndAccuracy (2 ^ 53) .exact >>> 1).mantissa = 2 ^ 52 :=
      rfl
    rw [hm]
    refine ⟨?_, by norm_num, by omega, Or.inl le_rfl⟩
    rw [Nat.cast_one, zpow_add_one₀ (by norm_num)]
    push_cast
    ring

/-- Rounding a mantissa of which only the residual bits are known, from an exponent that is not too
large. -/
theorem roundWithAccuracy_spec {m : ℕ} {e : ℤ} {acc : Accuracy} {q : ℚ} (s : Sign) (hq : 0 < q)
    (h : Tells (.ofMantissaAndAccuracy m acc) (q / 2 ^ e)) (he : e ≤ spacing q) :
    RoundsTo (roundWithAccuracy Format.binary64 s m e acc) (signed s q) := by
  obtain ⟨em, hshift, htells⟩ := shiftToTargetExponent_of_tells hq h he
  have hround := htells.roundedMantissa_eq
  have hle : em.roundedMantissa ≤ 2 ^ 53 := by
    have := roundEven_le q
    omega
  have hor : 2 ^ 52 ≤ em.roundedMantissa ∨ spacing q = -1074 :=
    (le_roundEven_or hq).imp_left fun h => by omega
  obtain ⟨em', e', hshift', hvalue, hlt, he', hor'⟩ :=
    shiftToTargetExponent_exact hle (least_le_spacing q) hor
  have hnearest : nearest (signed s q) = signed s (em'.mantissa * 2 ^ e') := by
    rw [nearest_signed hq.le, nearestPositive, ← hround, hvalue, Int.cast_natCast]
  simp only [roundWithAccuracy, hshift, hshift']
  split_ifs with h0
  · refine ⟨trivial, ?_⟩
    rw [hnearest, h0, Nat.cast_zero, zero_mul]
    cases s with
    | negative => exact neg_zero.symm
    | positive => rfl
  · exact ⟨⟨hlt, he', hor'⟩, hnearest.symm⟩

theorem tells_mul_zpow (m : ℕ) (e : ℤ) :
    Tells (.ofMantissaAndAccuracy m .exact) (m * 2 ^ e / 2 ^ e : ℚ) := by
  rw [mul_div_cancel_right₀ _ (by positivity)]
  exact tells_exact m

theorem decreaseExponent_spec (m : ℕ) (e t : ℤ) :
    ∃ m' : ℕ, decreaseExponent m e t = (m', min e t) ∧ (m' : ℚ) * 2 ^ min e t = m * 2 ^ e := by
  have hmin : e - ((e - t).toNat : ℤ) = min e t := by omega
  refine ⟨m <<< (e - t).toNat, ?_, ?_⟩
  · rw [decreaseExponent, hmin]
  · rw [Nat.shiftLeft_eq, Nat.cast_mul, Nat.cast_pow, mul_assoc, ← hmin, ← zpow_natCast,
      Nat.cast_ofNat, ← zpow_add₀ (by norm_num), add_sub_cancel]

theorem round_spec (s : Sign) {m : ℕ} (hm : 0 < m) (e : ℤ) :
    RoundsTo (UnpackedFloat.round Format.binary64 s m e) (signed s (m * 2 ^ e)) := by
  have hq : (0 : ℚ) < m * 2 ^ e := by positivity
  have ht := targetExponent_of_tells hq (tells_mul_zpow m e) (Or.inl hm.ne')
  obtain ⟨m', hdecrease, hvalue⟩ := decreaseExponent_spec m e (spacing (m * 2 ^ e))
  rw [UnpackedFloat.round, ht, hdecrease]
  apply roundWithAccuracy_spec s hq _ (min_le_right _ _)
  nth_rewrite 1 [← hvalue]
  exact tells_mul_zpow _ _

/-- Every mantissa and exponent is rounded to the nearest float. -/
theorem normalize_spec (n e : ℤ) (s : Sign) :
    RoundsTo (UnpackedFloat.normalize Format.binary64 n e s) (n * 2 ^ e) := by
  rcases lt_trichotomy n 0 with hn | rfl | hn
  · obtain ⟨k, rfl⟩ := Int.exists_eq_neg_ofNat hn.le
    have hk : (((-(k : ℤ) : ℤ) : ℚ)) * 2 ^ e = signed .negative (k * 2 ^ e) := by
      rw [signed]
      push_cast
      ring
    rw [UnpackedFloat.normalize, Int.compare_eq_lt.2 hn, hk, neg_neg, Int.toNat_natCast]
    exact round_spec .negative (by omega) e
  · rw [UnpackedFloat.normalize, Int.cast_zero, zero_mul]
    exact ⟨trivial, by simp [rational, nearest, nearestPositive, roundEven]⟩
  · lift n to ℕ using hn.le
    rw [UnpackedFloat.normalize, Int.compare_eq_gt.2 hn, Int.cast_natCast, Int.toNat_natCast]
    exact round_spec .positive (by omega) e

end TileWorld.Binary
