import TileWorld.Proofs.Binary.Truncate

/-! What adding a number between zero and one does to a float. The sum is rounded, but never so far
that two whole numbers are passed. -/

namespace TileWorld.Binary

theorem spacing_le {q : ℚ} {e : ℤ} (hq : 0 < q) (h : q < 2 ^ (e + 53)) (he : -1074 ≤ e) :
    spacing q ≤ e := by
  have hlog : Int.log 2 q < e + 53 :=
    (Int.lt_zpow_iff_log_lt (by norm_num) hq).1 (by exact_mod_cast h)
  unfold spacing
  omega

theorem abs_nearest_sub_le {q : ℚ} {e : ℤ} (h : |q| < 2 ^ (e + 53)) (he : -1074 ≤ e) :
    |nearest q - q| ≤ 2 ^ e / 2 := by
  have hpositive {q : ℚ} (hq : 0 < q) (h : q < 2 ^ (e + 53)) : |nearest q - q| ≤ 2 ^ e / 2 := by
    have hpow : (2 : ℚ) ^ spacing q ≤ 2 ^ e :=
      zpow_le_zpow_right₀ (by norm_num) (spacing_le hq h he)
    rw [nearest_of_nonneg hq.le]
    linarith [abs_nearestPositive_sub_le q]
  rcases lt_trichotomy q 0 with hq | rfl | hq
  · rw [abs_of_neg hq] at h
    have hneg := hpositive (neg_pos.2 hq) h
    rwa [nearest_neg, ← neg_sub', abs_neg] at hneg
  · rw [nearest_of_value? value?_zero, sub_zero, abs_zero]
    positivity
  · rw [abs_of_pos hq] at h
    exact hpositive hq h

theorem nearest_le_add {q : ℚ} {e : ℤ} (hq : 0 < q) (h : q < 2 ^ (e + 53)) (he : -1074 ≤ e) :
    nearest q ≤ q + 2 ^ e / 2 := by
  rw [← abs_of_pos hq] at h
  linarith [(abs_le.1 (abs_nearest_sub_le h he)).2]

/-- What is less than half of the spacing is lost in the sum. -/
theorem nearest_add_eq_self {m : ℕ} {e : ℤ} {s : ℚ} (hm : 2 ^ 52 ≤ m) (hm' : m < 2 ^ 53)
    (he : -1074 ≤ e) (hs : 0 ≤ s) (hs' : s < 2 ^ e / 2) : nearest (m * 2 ^ e + s) = m * 2 ^ e := by
  have hlower : (2 : ℚ) ^ 52 ≤ m := by exact_mod_cast hm
  have hupper : (m : ℚ) + 1 ≤ 2 ^ 53 := by exact_mod_cast hm'
  have hpos : (0 : ℚ) < 2 ^ e := by positivity
  have hsum : (m : ℚ) * 2 ^ e + s < 2 ^ (e + 53) := by
    rw [add_comm e, zpow_add₀ (by norm_num)]
    calc (m : ℚ) * 2 ^ e + s < (m + 1) * 2 ^ e := by linarith
      _ ≤ 2 ^ 53 * 2 ^ e := mul_le_mul_of_nonneg_right hupper hpos.le
  have hspacing : spacing (m * 2 ^ e + s) = e := by
    apply le_antisymm (spacing_le (by positivity) hsum he)
    exact (le_spacing (Or.inl hm)).trans (spacing_mono (by positivity) (by linarith))
  have hfraction : s / 2 ^ e < 1 / 2 := by
    rw [div_lt_iff₀ hpos]
    linarith
  have hquot : (m * 2 ^ e + s) / 2 ^ e = m + s / 2 ^ e := by
    rw [add_div, mul_div_cancel_right₀ _ hpos.ne']
  have hfloor : ⌊(m : ℚ) + s / 2 ^ e⌋ = m := by
    rw [Int.floor_eq_iff]
    have : 0 ≤ s / 2 ^ e := by positivity
    constructor
    · push_cast
      linarith
    · push_cast
      linarith
  rw [nearest_of_nonneg (by positivity), nearestPositive, hspacing, hquot, roundEven, hfloor,
    if_pos (by push_cast; linarith), Int.cast_natCast]

/-- A float below a whole number is below it by a spacing at least. -/
theorem add_zpow_le_floor_add_one {m k : ℕ} :
    (m : ℚ) * 2 ^ (-(k : ℤ)) + 2 ^ (-(k : ℤ)) ≤ ⌊(m : ℚ) * 2 ^ (-(k : ℤ))⌋ + 1 := by
  have hlt := Int.lt_floor_add_one ((m : ℚ) * 2 ^ (-(k : ℤ)))
  generalize ⌊(m : ℚ) * 2 ^ (-(k : ℤ))⌋ = f at hlt
  have hpos : (0 : ℚ) < 2 ^ k := by positivity
  rw [zpow_neg, zpow_natCast, ← div_eq_mul_inv, div_lt_iff₀ hpos] at hlt
  have hle : (m : ℤ) + 1 ≤ (f + 1) * 2 ^ k := by exact_mod_cast hlt
  rw [zpow_neg, zpow_natCast, ← one_div, mul_one_div, ← add_div, div_le_iff₀ hpos]
  exact_mod_cast hle

theorem nearest_add_lt {m : ℕ} {e : ℤ} {s : ℚ} (hm : m < 2 ^ 53) (hor : 2 ^ 52 ≤ m ∨ e = -1074)
    (hs : 0 < s) (hs' : s < 15 / 16) :
    nearest (m * 2 ^ e + s) < ⌊(m * 2 ^ e : ℚ)⌋ + 2 := by
  have hq : (0 : ℚ) ≤ m * 2 ^ e := by positivity
  have hlt := Int.lt_floor_add_one (m * 2 ^ e : ℚ)
  have hm' : (m : ℚ) < 2 ^ 53 := by exact_mod_cast hm
  -- the spacing is a sixteenth at most, or at most one, or more than one
  rcases le_or_gt e (-4) with hsmall | hsmall
  · have hpow : (2 : ℚ) ^ e ≤ 2 ^ (-4 : ℤ) := zpow_le_zpow_right₀ (by norm_num) hsmall
    have hbound : (m : ℚ) * 2 ^ e ≤ 2 ^ 53 * 2 ^ (-4 : ℤ) :=
      mul_le_mul hm'.le hpow (by positivity) (by positivity)
    have hnearest := nearest_le_add (q := m * 2 ^ e + s) (e := -3) (by linarith)
      (by norm_num at hbound ⊢; linarith) (by norm_num)
    norm_num at hnearest
    linarith
  rcases le_or_gt e 0 with hunit | hlarge
  · obtain ⟨k, rfl⟩ := Int.exists_eq_neg_ofNat hunit
    have hgap := add_zpow_le_floor_add_one (m := m) (k := k)
    have hone : (1 : ℚ) ≤ 2 ^ (-(k : ℤ) + 53) := one_le_zpow₀ (by norm_num) (by omega)
    have hmul : (m : ℚ) * 2 ^ (-(k : ℤ)) < 2 ^ (-(k : ℤ) + 53) := by
      rw [add_comm (-(k : ℤ)), zpow_add₀ (by norm_num)]
      exact mul_lt_mul_of_pos_right hm' (by positivity)
    have hbound : (m : ℚ) * 2 ^ (-(k : ℤ)) + s < 2 ^ (-(k : ℤ) + 1 + 53) := by
      rw [add_right_comm, zpow_add_one₀ (by norm_num)]
      linarith
    have hnearest := nearest_le_add (by linarith) hbound (by omega)
    rw [zpow_add_one₀ (by norm_num)] at hnearest
    linarith
  · have hone : (2 : ℚ) ^ (1 : ℤ) ≤ 2 ^ e := zpow_le_zpow_right₀ (by norm_num) hlarge
    rw [zpow_one] at hone
    rw [nearest_add_eq_self (hor.resolve_right (by omega)) hm (by omega) hs.le (by linarith)]
    linarith

end TileWorld.Binary
