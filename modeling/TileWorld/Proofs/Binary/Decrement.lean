import TileWorld.Proofs.Binary.Increment

/-! What subtracting a number between zero and one does to a float of one at least. The difference
is rounded, but not below that of the float and one. -/

namespace TileWorld.Binary

/-- What is less than half of the spacing is lost in the difference, unless it leads to where the
floats are closer to each other. -/
theorem nearest_sub_eq_self {m : ℕ} {e : ℤ} {s : ℚ} (hm : 2 ^ 52 < m) (hm' : m ≤ 2 ^ 53)
    (he : -1074 ≤ e) (hs : 0 < s) (hs' : s < 2 ^ e / 2) : nearest (m * 2 ^ e - s) = m * 2 ^ e := by
  have hlower : (2 : ℚ) ^ 52 ≤ (m - 1 : ℕ) := by exact_mod_cast Nat.le_sub_one_of_lt hm
  have hupper : (m : ℚ) ≤ 2 ^ 53 := by exact_mod_cast hm'
  have hpos : (0 : ℚ) < 2 ^ e := by positivity
  have hpred : ((m - 1 : ℕ) : ℚ) * 2 ^ e ≤ m * 2 ^ e - s := by
    rw [Nat.cast_pred (by omega)]
    linarith
  have hdiff : (0 : ℚ) < m * 2 ^ e - s := lt_of_lt_of_le (by positivity) hpred
  have hspacing : spacing (m * 2 ^ e - s) = e := by
    apply le_antisymm (spacing_le hdiff _ he)
    · have hle := le_spacing (e := e) (Or.inl (Nat.le_sub_one_of_lt hm))
      exact hle.trans (spacing_mono (by positivity) hpred)
    · rw [add_comm, zpow_add₀ (by norm_num)]
      calc (m : ℚ) * 2 ^ e - s < m * 2 ^ e := sub_lt_self _ hs
        _ ≤ 2 ^ 53 * 2 ^ e := mul_le_mul_of_nonneg_right hupper hpos.le
  have hfraction : s / 2 ^ e < 1 / 2 := by
    rw [div_lt_iff₀ hpos]
    linarith
  have hfraction' : 0 < s / 2 ^ e := div_pos hs hpos
  -- the quotient is less than half away from a whole number
  have hround := abs_le.1 (abs_roundEven_sub_le (m - s / 2 ^ e))
  have hself : roundEven (m - s / 2 ^ e) = m := by
    have hge : ((m - 1 : ℤ) : ℚ) < roundEven (m - s / 2 ^ e) := by push_cast; linarith
    have hle : (roundEven (m - s / 2 ^ e) : ℚ) < ((m + 1 : ℤ) : ℚ) := by push_cast; linarith
    have hge := Int.cast_lt.1 hge
    have hle := Int.cast_lt.1 hle
    omega
  rw [nearest_of_nonneg hdiff.le, nearestPositive, hspacing, sub_div,
    mul_div_cancel_right₀ _ hpos.ne', hself, Int.cast_natCast]

theorem sub_one_le_nearest_mantissa_sub {m : ℕ} {e : ℤ} {s : ℚ} (hm : m ≤ 2 ^ 53)
    (hor : 2 ^ 52 < m ∨ e ≤ 0) (hq : 1 ≤ (m : ℚ) * 2 ^ e) (hs : 0 < s) (hs' : s < 1) :
    m * 2 ^ e - 1 ≤ nearest (m * 2 ^ e - s) := by
  rcases le_or_gt e 0 with hunit | hlarge
  · obtain ⟨k, rfl⟩ := Int.exists_eq_neg_ofNat hunit
    have hk : 2 ^ k ≤ m := by
      rw [zpow_neg, zpow_natCast, ← div_eq_mul_inv, le_div_iff₀ (by positivity), one_mul] at hq
      exact_mod_cast hq
    have hk' : k ≤ 53 := (Nat.pow_le_pow_iff_right (by norm_num)).1 (hk.trans hm)
    have hone : (m : ℚ) * 2 ^ (-(k : ℤ)) - 1 = ((m - 2 ^ k : ℤ) : ℚ) * 2 ^ (-(k : ℤ)) := by
      push_cast
      rw [sub_mul, zpow_neg, zpow_natCast, mul_inv_cancel₀ (by positivity)]
    have habs : |(m - 2 ^ k : ℤ)| < 2 ^ 53 := by
      have hpos : 0 < 2 ^ k := by positivity
      rw [abs_lt]
      zify at hk hm hpos
      constructor <;> linarith
    have hself := nearest_eq_self habs (e := -(k : ℤ)) (by omega)
    rw [hone, ← hself, ← hone]
    exact nearest_mono (by linarith)
  · have hhalf : (1 : ℚ) ≤ 2 ^ e / 2 := by
      have hone : (2 : ℚ) ^ (1 : ℤ) ≤ 2 ^ e := zpow_le_zpow_right₀ (by norm_num) hlarge
      rw [zpow_one] at hone
      linarith
    rw [nearest_sub_eq_self (hor.resolve_right (by omega)) hm (by omega) hs (hs'.trans_le hhalf)]
    exact sub_le_self _ zero_le_one

theorem sub_one_le_nearest_sub {x : Float} {q s : ℚ} (h : value? x = some q) (hq : 1 ≤ q)
    (hs : 0 < s) (hs' : s < 1) : q - 1 ≤ nearest (q - s) := by
  obtain ⟨m, e, rfl, hm, hor⟩ := exists_mantissa h (by linarith)
  by_cases hleast : m = 2 ^ 52 ∧ 0 < e
  · -- the floats below a power of two are twice as close
    obtain ⟨rfl, he⟩ := hleast
    have hdouble : ((2 ^ 52 : ℕ) : ℚ) * 2 ^ e = (2 ^ 53 : ℕ) * 2 ^ (e - 1) := by
      rw [zpow_sub_one₀ (by norm_num)]
      push_cast
      ring
    rw [hdouble] at hq ⊢
    exact sub_one_le_nearest_mantissa_sub le_rfl (Or.inl (by norm_num)) hq hs hs'
  · refine sub_one_le_nearest_mantissa_sub hm.le ?_ hq hs hs'
    omega

end TileWorld.Binary
