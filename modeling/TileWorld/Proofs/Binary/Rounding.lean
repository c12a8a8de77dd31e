import Mathlib.Algebra.Order.Field.Power
import Mathlib.Data.Int.Log
import Mathlib.Data.Rat.Floor
import Mathlib.Tactic.Linarith
import Mathlib.Tactic.Positivity
import Mathlib.Tactic.Ring

/-! Rounding of rationals to 53 binary digits, ties to even, with the spacing bounded below as it is
for subnormal floats. -/

namespace TileWorld.Binary

/-- The nearest whole number, and of two nearest ones the even one. -/
def roundEven (q : ℚ) : ℤ :=
  if q < ⌊q⌋ + 1 / 2 then ⌊q⌋
  else if q = ⌊q⌋ + 1 / 2 then ⌊q⌋ + ⌊q⌋ % 2
  else ⌊q⌋ + 1

/-- The exponent of the spacing of the floats around a positive number. -/
def spacing (q : ℚ) : ℤ := max (Int.log 2 q - 52) (-1074)

def nearestPositive (q : ℚ) : ℚ := roundEven (q / 2 ^ spacing q) * 2 ^ spacing q

/-- The float nearest to a number, if exponents had no upper bound. -/
def nearest (q : ℚ) : ℚ := if 0 ≤ q then nearestPositive q else -nearestPositive (-q)

/-- The float nearest to a number, unless it is too large for a float. -/
def nearest? (q : ℚ) : Option ℚ := if |nearest q| < 2 ^ 1024 then some (nearest q) else none

theorem roundEven_intCast (n : ℤ) : roundEven n = n := by
  rw [roundEven, Int.floor_intCast, if_pos (by linarith)]

theorem floor_le_roundEven (q : ℚ) : ⌊q⌋ ≤ roundEven q := by
  unfold roundEven
  split_ifs <;> omega

theorem roundEven_le_floor_add_one (q : ℚ) : roundEven q ≤ ⌊q⌋ + 1 := by
  unfold roundEven
  split_ifs <;> omega

theorem nearest_neg (q : ℚ) : nearest (-q) = -nearest q := by
  unfold nearest
  rcases lt_trichotomy q 0 with h | rfl | h
  · rw [if_pos (by linarith), if_neg (by linarith), neg_neg]
  · simp [nearestPositive, roundEven]
  · rw [if_neg (by linarith), if_pos h.le, neg_neg]

theorem nearestPositive_intCast_mul {q : ℚ} {n : ℤ} (h : q = n * 2 ^ spacing q) :
    nearestPositive q = q := by
  have hq : q / 2 ^ spacing q = n := by
    rw [div_eq_iff (by positivity)]
    exact h
  rw [nearestPositive, hq, roundEven_intCast]
  exact h.symm

theorem least_le_spacing (q : ℚ) : -1074 ≤ spacing q := le_max_right _ _

/-- A number with enough digits, or with a small enough exponent, has no digits to spare. -/
theorem le_spacing {m : ℕ} {e : ℤ} (h : 2 ^ 52 ≤ m ∨ e ≤ -1074) : e ≤ spacing (m * 2 ^ e) := by
  rcases h with hm | he
  · have hpow : (2 : ℚ) ^ (e + (52 : ℕ)) ≤ m * 2 ^ e := by
      rw [add_comm, zpow_add₀ (by norm_num), zpow_natCast]
      exact mul_le_mul_of_nonneg_right (by exact_mod_cast hm) (by positivity)
    have hpos : (0 : ℚ) < m * 2 ^ e := lt_of_lt_of_le (by positivity) hpow
    have hlog : e + (52 : ℕ) ≤ Int.log 2 ((m : ℚ) * 2 ^ e) :=
      (Int.zpow_le_iff_le_log (by norm_num) hpos).1 (by exact_mod_cast hpow)
    unfold spacing
    omega
  · exact he.trans (least_le_spacing _)

theorem roundEven_le (q : ℚ) : roundEven (q / 2 ^ spacing q) ≤ 2 ^ 53 := by
  have hlog : q < 2 ^ (spacing q + (53 : ℕ)) := by
    apply lt_of_lt_of_le (Int.lt_zpow_succ_log_self (b := 2) (by norm_num) q)
    apply zpow_le_zpow_right₀ (by norm_num)
    unfold spacing
    omega
  have hfloor : ⌊q / 2 ^ spacing q⌋ < 2 ^ 53 := by
    rw [Int.floor_lt, div_lt_iff₀ (by positivity)]
    rw [add_comm, zpow_add₀ (by norm_num), zpow_natCast] at hlog
    exact_mod_cast hlog
  exact (roundEven_le_floor_add_one _).trans hfloor

theorem le_roundEven_or {q : ℚ} (hq : 0 < q) :
    2 ^ 52 ≤ roundEven (q / 2 ^ spacing q) ∨ spacing q = -1074 := by
  by_cases ht : spacing q = -1074
  · exact Or.inr ht
  · left
    have hlog : 2 ^ (spacing q + (52 : ℕ)) ≤ q := by
      apply le_trans _ (Int.zpow_log_le_self (b := 2) (by norm_num) hq)
      apply zpow_le_zpow_right₀ (by norm_num)
      unfold spacing at *
      omega
    have hfloor : 2 ^ 52 ≤ ⌊q / 2 ^ spacing q⌋ := by
      rw [Int.le_floor, le_div_iff₀ (by positivity)]
      rw [add_comm, zpow_add₀ (by norm_num), zpow_natCast] at hlog
      exact_mod_cast hlog
    exact hfloor.trans (floor_le_roundEven _)

theorem nearestPositive_eq_self {n : ℕ} {e : ℤ} (hn : n < 2 ^ 53) (he : -1074 ≤ e) :
    nearestPositive (n * 2 ^ e) = n * 2 ^ e := by
  rcases Nat.eq_zero_or_pos n with rfl | hpos
  · simp [nearestPositive, roundEven]
  set q : ℚ := n * 2 ^ e with hq
  have hqpos : 0 < q := by positivity
  have hlog : Int.log 2 q < 53 + e := by
    rw [← Int.lt_zpow_iff_log_lt (by norm_num) hqpos, hq, zpow_add₀ (by norm_num)]
    exact mul_lt_mul_of_pos_right (by exact_mod_cast hn) (by positivity)
  have hle : spacing q ≤ e := by
    unfold spacing
    omega
  -- the number is a whole multiple of the spacing around it
  apply nearestPositive_intCast_mul (n := n * 2 ^ (e - spacing q).toNat)
  push_cast
  rw [← zpow_natCast, Int.toNat_of_nonneg (by omega), mul_assoc, ← zpow_add₀ (by norm_num),
    sub_add_cancel]

theorem nearest_eq_self {n e : ℤ} (hn : |n| < 2 ^ 53) (he : -1074 ≤ e) :
    nearest (n * 2 ^ e) = n * 2 ^ e := by
  rcases le_or_gt 0 n with h | h
  · lift n to ℕ using h
    rw [nearest, if_pos (by positivity)]
    exact nearestPositive_eq_self (by simpa using hn) he
  · obtain ⟨k, rfl⟩ := Int.exists_eq_neg_ofNat h.le
    have hk : ((-(k : ℤ) : ℤ) : ℚ) * 2 ^ e = -(k * 2 ^ e) := by
      push_cast
      ring
    have hk' : k < 2 ^ 53 := by simpa using hn
    rw [hk, nearest_neg, nearest, if_pos (by positivity), nearestPositive_eq_self hk' he]

theorem mul_zpow_lt {m : ℕ} {e : ℤ} (hm : m < 2 ^ 53) (he : e ≤ 971) :
    (m : ℚ) * 2 ^ e < 2 ^ 1024 := by
  have hm' : (m : ℚ) < 2 ^ 53 := by exact_mod_cast hm
  calc (m : ℚ) * 2 ^ e < 2 ^ 53 * 2 ^ e := mul_lt_mul_of_pos_right hm' (by positivity)
    _ ≤ 2 ^ 53 * 2 ^ ((971 : ℕ) : ℤ) := by
      apply mul_le_mul_of_nonneg_left _ (by positivity)
      exact zpow_le_zpow_right₀ (by norm_num) (by exact_mod_cast he)
    _ = 2 ^ 1024 := by rw [zpow_natCast, ← pow_add]

theorem le_mul_zpow {m : ℕ} {e : ℤ} (hm : 2 ^ 52 ≤ m) (he : 972 ≤ e) :
    (2 : ℚ) ^ 1024 ≤ m * 2 ^ e := by
  have hm' : (2 : ℚ) ^ 52 ≤ m := by exact_mod_cast hm
  calc (2 : ℚ) ^ 1024 = 2 ^ 52 * 2 ^ ((972 : ℕ) : ℤ) := by rw [zpow_natCast, ← pow_add]
    _ ≤ (m : ℚ) * 2 ^ ((972 : ℕ) : ℤ) := mul_le_mul_of_nonneg_right hm' (by positivity)
    _ ≤ m * 2 ^ e := by
      apply mul_le_mul_of_nonneg_left _ (by positivity)
      exact zpow_le_zpow_right₀ (by norm_num) (by exact_mod_cast he)

theorem nearest?_eq_some {n e : ℤ} (hn : |n| < 2 ^ 53) (he : -1074 ≤ e) (he' : e ≤ 971) :
    nearest? (n * 2 ^ e) = some ((n : ℚ) * 2 ^ e) := by
  have hnat : n.natAbs < 2 ^ 53 := by
    rw [Int.abs_eq_natAbs] at hn
    exact_mod_cast hn
  have hlt : |(n : ℚ) * 2 ^ e| < 2 ^ 1024 := by
    rw [abs_mul, abs_of_pos (by positivity : (0 : ℚ) < 2 ^ e), ← Int.cast_abs, ← Nat.cast_natAbs]
    exact mul_zpow_lt hnat he'
  rw [nearest?, nearest_eq_self hn he, if_pos hlt]

end TileWorld.Binary
