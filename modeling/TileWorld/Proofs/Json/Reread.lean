import TileWorld.Proofs.Binary.Magnitude
import TileWorld.Proofs.Binary.Whole
import TileWorld.Proofs.Decimal.Shortest
import TileWorld.Proofs.Json.Layout

/-! The float that is read back from the text of a float. The digits are converted and scaled in
floats, so it is the same float only where these steps do not round. No finite float has a text
that is too large to be read. -/

namespace TileWorld.Json
open Binary
open Decimal (Digits digits exact shortest Faithful)

/-- A float multiplied or divided by a power of ten. Powers beyond the 308th are no floats, and are
divided by in two steps. -/
def scaled (x : Float) (e : ℤ) : Float :=
  if 0 ≤ e then x * powerOfTen e.toNat
  else if -308 ≤ e then x / powerOfTen (-e).toNat
  else x / powerOfTen 308 / powerOfTen (-e - 308).toNat

def readDigits (d : Digits) : Float := scaled d.coefficient.toUInt64.toFloat d.exponent

/-- The digits in the text of a finite float, as they are read. -/
def digitsOf (x : Float) : Digits :=
  match exact x with
  | .finite _ m e => written (shortest .toEven m e)
  | _ => ⟨0, 0⟩

/-- The float that is read back from the text of a finite float. -/
def reread (x : Float) : Float :=
  match exact x with
  | .finite negative _ _ => Numeral.withSign negative (readDigits (digitsOf x))
  | _ => x

theorem exact_bounds {x : Float} {negative : Bool} {m : ℕ} {e : ℤ}
    (h : exact x = .finite negative m e) :
    m < 2 ^ 53 ∧ (2 ^ 52 ≤ m ∨ e = -1074) ∧ -1074 ≤ e ∧ e ≤ 971 := by
  unfold exact at h
  dsimp only at h
  simp only [Nat.pow_eq] at h
  have hfraction : x.toBits.toNat % 2 ^ 52 < 2 ^ 52 := Nat.mod_lt _ (by norm_num)
  have hbiased : x.toBits.toNat / 2 ^ 52 % 2 ^ 11 < 2 ^ 11 := Nat.mod_lt _ (by norm_num)
  generalize x.toBits.toNat % 2 ^ 52 = fraction at *
  generalize x.toBits.toNat / 2 ^ 52 % 2 ^ 11 = biased at *
  split at h
  · split at h <;> cases h
  · split at h
    · cases h
      exact ⟨by omega, Or.inr rfl, le_rfl, by decide⟩
    · cases h
      have hleast : Decimal.leastMantissa = 2 ^ 52 := rfl
      have hexponent : Decimal.leastExponent = -1074 := rfl
      rw [hleast, hexponent]
      exact ⟨by omega, Or.inl (by omega), by omega, by omega⟩

/-- The 308th power of ten is the last one in the range of floats. -/
theorem pow_308_le : (10 : ℚ) ^ 308 ≤ (2 ^ 53 - 1 : ℕ) * 2 ^ (971 : ℤ) := by
  have h : 10 ^ 308 ≤ (2 ^ 53 - 1) * 2 ^ 971 := by decide +kernel
  exact_mod_cast h

theorem lt_pow_309 : 2 ^ 53 * (2 : ℚ) ^ (971 : ℤ) < 10 ^ 309 := by
  have h : 2 ^ 53 * 2 ^ 971 < 10 ^ 309 := by decide +kernel
  exact_mod_cast h

theorem value?_powerOfTen {k : ℕ} (hk : k ≤ 308) :
    value? (powerOfTen k) = some (nearest (10 ^ k)) := by
  have hle : (10 : ℚ) ^ k ≤ 10 ^ 308 := pow_le_pow_right₀ (by norm_num) hk
  rw [powerOfTen, value?_natToFloat, Nat.pow_eq]
  push_cast
  exact nearest?_of_le (by positivity) (hle.trans pow_308_le)

theorem value?_coefficient {c : ℕ} (hc : c < 2 ^ 64) :
    value? c.toUInt64.toFloat = some (nearest c) := by
  have hle : (c : ℚ) ≤ 10 ^ 308 := by
    have hc' : (c : ℚ) ≤ 10 ^ 20 := by exact_mod_cast hc.le.trans (by norm_num)
    exact hc'.trans (pow_le_pow_right₀ (by norm_num) (by norm_num))
  rw [value?_toFloat_of_lt hc]
  exact nearest?_of_le (by positivity) (hle.trans pow_308_le)

theorem scale?_of_neg (x : Float) {e : ℤ} (he : e < 0) (hle : -616 ≤ e) :
    scale? x e = some (scaled x e) := by
  unfold scale? scaled
  rw [if_neg (not_le.2 he), if_neg (not_le.2 he), if_pos hle]
  split <;> rfl

/-- Rounding twice and once more does not lead above the floats from a number that lies three
spacings below their end. -/
theorem value?_mul_powerOfTen {c e : ℕ} (hc : 0 < c) (hc' : c < 2 ^ 64)
    (h : (c : ℚ) * 10 ^ e ≤ (2 ^ 53 - 7 / 2) * 2 ^ (971 : ℤ)) : e ≤ 308 ∧
      value? (c.toUInt64.toFloat * powerOfTen e) = some (nearest (nearest c * nearest (10 ^ e))) := by
  have hone : (1 : ℚ) ≤ c := by exact_mod_cast hc
  have hpower : (1 : ℚ) ≤ 10 ^ e := one_le_pow₀ (by norm_num)
  have he308 : e ≤ 308 := by
    by_contra hlt
    have hmore : (10 : ℚ) ^ 309 ≤ 10 ^ e := pow_le_pow_right₀ (by norm_num) (by omega)
    have hless : (10 : ℚ) ^ e ≤ c * 10 ^ e := le_mul_of_one_le_left (by positivity) hone
    have hfar : (2 ^ 53 - 7 / 2) * (2 : ℚ) ^ (971 : ℤ) ≤ 2 ^ 53 * 2 ^ (971 : ℤ) :=
      mul_le_mul_of_nonneg_right (by norm_num) (by positivity)
    exact absurd lt_pow_309 (not_lt.2 (hmore.trans (hless.trans (h.trans hfar))))
  have hproduct : nearest c * nearest (10 ^ e) ≤ (2 ^ 53 - 1 : ℕ) * 2 ^ (971 : ℤ) := by
    calc nearest c * nearest (10 ^ e)
        ≤ (c * (1 + 1 / 2 ^ 53)) * (10 ^ e * (1 + 1 / 2 ^ 53)) :=
          mul_le_mul (nearest_le_mul (by linarith)) (nearest_le_mul (by linarith))
            (nearest_nonneg (by positivity)) (by positivity)
      _ = c * 10 ^ e * (1 + 1 / 2 ^ 53) ^ 2 := by ring
      _ ≤ (2 ^ 53 - 7 / 2) * 2 ^ (971 : ℤ) * (1 + 1 / 2 ^ 53) ^ 2 :=
          mul_le_mul_of_nonneg_right h (by positivity)
      _ = (2 ^ 53 - 7 / 2) * (1 + 1 / 2 ^ 53) ^ 2 * 2 ^ (971 : ℤ) := mul_right_comm _ _ _
      _ ≤ (2 ^ 53 - 1 : ℕ) * 2 ^ (971 : ℤ) :=
          mul_le_mul_of_nonneg_right (by norm_num) (by positivity)
  exact ⟨he308, (value?_mul (value?_coefficient hc') (value?_powerOfTen he308)).trans
    (nearest?_of_le (mul_nonneg (nearest_nonneg (by positivity)) (nearest_nonneg (by positivity)))
      hproduct)⟩

theorem scale?_of_le {c : ℕ} {e : ℤ} (hc : 0 < c) (hc' : c < 2 ^ 64) (he : 0 ≤ e)
    (h : (c : ℚ) * 10 ^ e ≤ (2 ^ 53 - 7 / 2) * 2 ^ (971 : ℤ)) :
    scale? c.toUInt64.toFloat e = some (scaled c.toUInt64.toFloat e) := by
  lift e to ℕ using he
  rw [zpow_natCast] at h
  obtain ⟨he308, hvalue⟩ := value?_mul_powerOfTen hc hc' h
  unfold scale? scaled
  have he0 : (0 : ℤ) ≤ e := Int.natCast_nonneg e
  rw [if_pos he0, if_pos he0, if_pos (by exact_mod_cast he308), Int.toNat_natCast]
  dsimp only
  rw [isInf_eq_false hvalue]
  rfl

/-- All but the three largest floats lie this far below the end of the range. -/
theorem upperEnd_le {m : ℕ} {e : ℤ} (hm' : m < 2 ^ 53) (he' : e ≤ 971)
    (h : ¬(e = 971 ∧ 2 ^ 53 - 4 < m)) : upperEnd m e ≤ (2 ^ 53 - 7 / 2) * 2 ^ (971 : ℤ) := by
  unfold upperEnd
  by_cases htop : e = 971
  · subst htop
    have hm4 : m + 4 ≤ 2 ^ 53 := by omega
    have hm4' : (m : ℚ) + 4 ≤ 2 ^ 53 := by exact_mod_cast hm4
    exact mul_le_mul_of_nonneg_right (by linarith) (by positivity)
  · have hm1 : (m : ℚ) + 1 ≤ 2 ^ 53 := by exact_mod_cast hm'
    calc (m + 1 / 2 : ℚ) * 2 ^ e ≤ 2 ^ 53 * 2 ^ (970 : ℤ) :=
          mul_le_mul (by linarith) (zpow_le_zpow_right₀ (by norm_num) (by omega)) (by positivity)
            (by positivity)
      _ ≤ (2 ^ 53 - 7 / 2) * 2 * 2 ^ (970 : ℤ) :=
          mul_le_mul_of_nonneg_right (by norm_num) (by positivity)
      _ = (2 ^ 53 - 7 / 2) * 2 ^ (970 + 1 : ℤ) := by
          rw [zpow_add_one₀ (by norm_num)]
          ring

/-- What the text of a finite float says is not too large to be read. For the three largest floats
there is no room for a bound, and they are tried. -/
theorem scale?_shortest {m : ℕ} {e : ℤ} (hm : 0 < m) (hm' : m < 2 ^ 53) (he : -1074 ≤ e)
    (he' : e ≤ 971) :
    scale? (written (shortest .toEven m e)).coefficient.toUInt64.toFloat
        (written (shortest .toEven m e)).exponent =
      some (readDigits (written (shortest .toEven m e))) := by
  have hfaithful := Decimal.faithful_shortest .toEven e hm hm'
  by_cases hlargest : e = 971 ∧ 2 ^ 53 - 4 < m
  · obtain ⟨rfl, hlarge⟩ := hlargest
    have hmantissa : m = 2 ^ 53 - 3 ∨ m = 2 ^ 53 - 2 ∨ m = 2 ^ 53 - 1 := by omega
    rcases hmantissa with rfl | rfl | rfl <;> decide +kernel
  have hvalue := hfaithful.roundsBack.le_upperEnd.trans (upperEnd_le hm' he' hlargest)
  have hleast := hfaithful.neg_616_le_exponent hm he
  have hpos := hfaithful.coefficient_pos hm
  have hcoefficient := hfaithful.coefficient_le
  generalize shortest .toEven m e = d at *
  by_cases hneg : (written d).exponent < 0
  · apply scale?_of_neg _ hneg
    unfold written
    split
    · exact (by decide : (-616 : ℤ) ≤ -1)
    · exact hleast
  · have hsame : written d = d := by
      unfold written at hneg ⊢
      split at hneg
      · exact absurd (by decide : (-1 : ℤ) < 0) hneg
      · next h => exact if_neg h
    rw [hsame] at hneg ⊢
    exact scale?_of_le hpos (hcoefficient.trans_lt (by norm_num)) (not_lt.1 hneg) hvalue

theorem coefficient_digitsOf_le (x : Float) : (digitsOf x).coefficient ≤ 10 ^ 17 := by
  unfold digitsOf
  split
  · next negative m e hx =>
    apply coefficient_written_le
    rcases Nat.eq_zero_or_pos m with rfl | hm
    · exact Nat.zero_le _
    · exact (Decimal.faithful_shortest .toEven e hm (exact_bounds hx).1).coefficient_le
  · exact Nat.zero_le _

section
variable {x : Float} {negative : Bool} {m : ℕ} {e : ℤ} (hx : exact x = .finite negative m e)
include hx

theorem scale?_digitsOf :
    scale? (digitsOf x).coefficient.toUInt64.toFloat (digitsOf x).exponent =
      some (readDigits (digitsOf x)) := by
  obtain ⟨hm', -, he, he'⟩ := exact_bounds hx
  rw [digitsOf, hx]
  rcases Nat.eq_zero_or_pos m with rfl | hm
  · have hzero : written (shortest .toEven 0 e) = ⟨0, -1⟩ := by
      rw [shortest, if_pos rfl]
      decide
    dsimp only
    rw [hzero]
    exact scale?_of_neg _ (by decide) (by decide)
  · exact scale?_shortest hm hm' he he'

end

theorem value_written (d : Digits) : (written d).value = d.value := by
  unfold written
  split
  · next h =>
    rw [Bool.and_eq_true, decide_eq_true_eq] at h
    have hexponent : d.exponent = ((d.exponent.toNat + 1 : ℕ) : ℤ) + -1 := by
      omega
    rw [Digits.value, Digits.value]
    conv_rhs => rw [hexponent, zpow_add₀ (by norm_num), zpow_natCast]
    push_cast
    ring
  · rfl

theorem nearest_pow {k : ℕ} (hk : k ≤ 22) : nearest (10 ^ k) = 10 ^ k := by
  have hfactors : (10 : ℚ) ^ k = ((5 ^ k : ℕ) : ℤ) * 2 ^ (k : ℤ) := by
    rw [zpow_natCast]
    push_cast
    rw [← mul_pow]
    norm_num
  have hfive : 5 ^ k ≤ 5 ^ 22 := Nat.pow_le_pow_right (by norm_num) hk
  rw [hfactors]
  apply nearest_eq_self _ (by omega)
  rw [Nat.abs_cast]
  exact_mod_cast hfive.trans_lt (by norm_num)

/-- With a significand that is a float, and a power of ten that is one, only one step rounds. -/
structure ReadsExactly (d : Digits) : Prop where
  significand : nearest d.coefficient = d.coefficient
  exponent : d.exponent.natAbs ≤ 22

/-- A longer significand is a float if it is even often enough. -/
theorem readsExactly_of_eq {d : Digits} {n k : ℕ} (hd : d.coefficient = n * 2 ^ k)
    (hn : n < 2 ^ 53) (hexponent : d.exponent.natAbs ≤ 22) : ReadsExactly d := by
  have hvalue : (d.coefficient : ℚ) = (n : ℤ) * 2 ^ (k : ℤ) := by
    rw [hd, zpow_natCast]
    push_cast
    rfl
  refine ⟨?_, hexponent⟩
  rw [hvalue]
  apply nearest_eq_self _ (by omega)
  rw [Nat.abs_cast]
  exact_mod_cast hn

theorem value?_readDigits {d : Digits} (hc : d.coefficient < 2 ^ 64) (h : ReadsExactly d) :
    value? (readDigits d) = nearest? d.value := by
  have hexponent := h.exponent
  have hcoefficient := value?_coefficient hc
  rw [h.significand] at hcoefficient
  unfold readDigits scaled
  rw [Digits.value]
  split
  · next he =>
    have hpower := value?_powerOfTen (k := d.exponent.toNat) (by omega)
    rw [nearest_pow (by omega)] at hpower
    have hvalue : (10 : ℚ) ^ d.exponent = 10 ^ d.exponent.toNat := by
      rw [← zpow_natCast, Int.toNat_of_nonneg he]
    rw [value?_mul hcoefficient hpower, hvalue]
  · next he =>
    have hpower := value?_powerOfTen (k := (-d.exponent).toNat) (by omega)
    rw [nearest_pow (by omega)] at hpower
    have hvalue : (10 : ℚ) ^ d.exponent = (10 ^ (-d.exponent).toNat)⁻¹ := by
      rw [← zpow_natCast, Int.toNat_of_nonneg (by omega), zpow_neg, inv_inv]
    rw [if_pos (by omega), value?_div hcoefficient hpower (by positivity), hvalue, div_eq_mul_inv]

/-- Nothing is lost in the digits that are written: the float is the one nearest to them. -/
theorem nearest_digitsOf {x : Float} {q : ℚ} (h : value? x = some q) :
    nearest (digitsOf x).value = |q| := by
  cases hx : exact x with
  | nan =>
    rw [value?, hx] at h
    cases h
  | infinite negative =>
    rw [value?, hx] at h
    cases h
  | finite negative m e =>
    obtain ⟨hm', hor, he, -⟩ := exact_bounds hx
    rw [value?, hx] at h
    cases h
    rw [abs_signed _ (by positivity), digitsOf, hx, value_written]
    rcases Nat.eq_zero_or_pos m with rfl | hm
    · rw [shortest, if_pos rfl, Digits.value, Nat.cast_zero, zero_mul, zero_mul]
      exact nearest_of_value? value?_zero
    · exact (Decimal.faithful_shortest .toEven e hm hm').roundsBack.nearest_eq hm hm' he hor

/-- A float whose text is read exactly comes back, also with the sign of a zero. -/
theorem reread_eq_self {x : Float} (h : ReadsExactly (digitsOf x)) : reread x = x := by
  cases hx : exact x with
  | nan => rw [reread, hx]
  | infinite negative => rw [reread, hx]
  | finite negative m e =>
    obtain ⟨hm', -, -, he'⟩ := exact_bounds hx
    have hvalue : value? x =
        some (signed (if negative then .negative else .positive) (m * 2 ^ e)) := by
      rw [value?, hx]
    rcases Nat.eq_zero_or_pos m with rfl | hm
    · rw [Nat.cast_zero, zero_mul, signed_zero] at hvalue
      rcases eq_zero_of_value? hvalue with rfl | rfl <;> decide +kernel
    · have hpos : (0 : ℚ) < m * 2 ^ e := by positivity
      have hread : value? (readDigits (digitsOf x)) = some (m * 2 ^ e : ℚ) := by
        rw [value?_readDigits ((coefficient_digitsOf_le x).trans_lt (by norm_num)) h, nearest?, nearest_digitsOf hvalue,
          abs_signed _ hpos.le, abs_of_pos hpos, if_pos (mul_zpow_lt hm' he')]
      rw [reread, hx]
      cases negative with
      | false => exact eq_of_value?_eq hread hvalue hpos.ne'
      | true => exact eq_of_value?_eq (value?_neg hread) hvalue (neg_ne_zero.2 hpos.ne')

end TileWorld.Json
