import TileWorld.Proofs.Binary.Increment

/-! The numbers that are rounded to a given float: an interval around it that reaches half way to
its neighbours. Its ends belong to it if the mantissa is even. -/

namespace TileWorld.Binary

/-- The distance to the float below is half as large where the exponent changes. -/
def lowerEnd (m : ℕ) (e : ℤ) : ℚ :=
  (m - if m = 2 ^ 52 ∧ e ≠ -1074 then 1 / 4 else 1 / 2) * 2 ^ e

def upperEnd (m : ℕ) (e : ℤ) : ℚ := (m + 1 / 2) * 2 ^ e

def RoundsBack (m : ℕ) (e : ℤ) (v : ℚ) : Prop :=
  if m % 2 = 0 then lowerEnd m e ≤ v ∧ v ≤ upperEnd m e else lowerEnd m e < v ∧ v < upperEnd m e

theorem roundEven_eq_of_lt {q : ℚ} {n : ℤ} (hl : n - 1 / 2 < q) (hu : q < n + 1 / 2) :
    roundEven q = n := by
  have h := abs_le.1 (abs_roundEven_sub_le q)
  have hlower : (n : ℚ) - 1 < roundEven q := by linarith
  have hupper : (roundEven q : ℚ) < n + 1 := by linarith
  have hlower' : n - 1 < roundEven q := by exact_mod_cast hlower
  have hupper' : roundEven q < n + 1 := by exact_mod_cast hupper
  omega

/-- Midway between two whole numbers the even one is taken. -/
theorem roundEven_eq_of_even {q : ℚ} {n : ℤ} (hn : n % 2 = 0) (hl : n - 1 / 2 ≤ q)
    (hu : q ≤ n + 1 / 2) : roundEven q = n := by
  have hmidway (k : ℤ) : roundEven (k + 1 / 2) = k + k % 2 := by
    have hfloor : ⌊(k : ℚ) + 1 / 2⌋ = k := by
      rw [Int.floor_intCast_add]
      norm_num
    rw [roundEven, hfloor, if_neg (lt_irrefl _), if_pos rfl]
  apply le_antisymm
  · apply (roundEven_mono hu).trans
    rw [hmidway n]
    omega
  · refine le_trans ?_ (roundEven_mono hl)
    have hshift : (n : ℚ) - 1 / 2 = ((n - 1 : ℤ) : ℚ) + 1 / 2 := by
      push_cast
      ring
    rw [hshift, hmidway]
    omega

section
variable {m : ℕ} {e : ℤ} {v : ℚ}

theorem RoundsBack.le_upperEnd (h : RoundsBack m e v) : v ≤ upperEnd m e := by
  unfold RoundsBack at h
  split at h
  · exact h.2
  · exact h.2.le

theorem RoundsBack.lowerEnd_le (h : RoundsBack m e v) : lowerEnd m e ≤ v := by
  unfold RoundsBack at h
  split at h
  · exact h.1
  · exact h.1.le

theorem roundsBack_of_lt (hl : lowerEnd m e < v) (hu : v < upperEnd m e) : RoundsBack m e v := by
  unfold RoundsBack
  split
  · exact ⟨hl.le, hu.le⟩
  · exact ⟨hl, hu⟩

theorem lowerEnd_pos (hm : 0 < m) : 0 < lowerEnd m e := by
  have hm' : (1 : ℚ) ≤ m := by exact_mod_cast hm
  apply mul_pos _ (by positivity)
  split <;> linarith

theorem RoundsBack.pos (hm : 0 < m) (h : RoundsBack m e v) : 0 < v :=
  (lowerEnd_pos hm).trans_le h.lowerEnd_le

/-- Where the floats below lie as close as those above, the interval is that of rounding. -/
theorem nearest_of_spacing_eq (hm : 0 < m) (hs : spacing v = e) (h : RoundsBack m e v) :
    nearest v = m * 2 ^ e := by
  have hpos : (0 : ℚ) < 2 ^ e := by positivity
  have hround : roundEven (v / 2 ^ e) = m := by
    have hhalf : (m - 1 / 2 : ℚ) * 2 ^ e ≤ lowerEnd m e := by
      apply mul_le_mul_of_nonneg_right _ hpos.le
      split <;> linarith
    unfold RoundsBack at h
    split at h
    · next heven =>
      apply roundEven_eq_of_even (by omega)
      · rw [Int.cast_natCast, le_div_iff₀ hpos]
        exact hhalf.trans h.1
      · rw [Int.cast_natCast, div_le_iff₀ hpos]
        exact h.2
    · apply roundEven_eq_of_lt
      · rw [Int.cast_natCast, lt_div_iff₀ hpos]
        exact hhalf.trans_lt h.1
      · rw [Int.cast_natCast, div_lt_iff₀ hpos]
        exact h.2
  rw [nearest_of_nonneg (h.pos hm).le, nearestPositive, hs, hround, Int.cast_natCast]

/-- Below a power of two the floats lie twice as close. The interval ends a quarter below it, which
is midway there. -/
theorem nearest_of_lt_pow (he : -1074 < e) (hl : (2 ^ 52 - 1 / 4) * 2 ^ e ≤ v)
    (hu : v < 2 ^ 52 * 2 ^ e) : nearest v = 2 ^ 52 * 2 ^ e := by
  have hpos : (0 : ℚ) < 2 ^ (e - 1) := by positivity
  have hdouble : (2 : ℚ) ^ e = 2 * 2 ^ (e - 1) := by
    rw [← zpow_one_add₀ (by norm_num), add_sub_cancel]
  rw [hdouble] at hl hu ⊢
  have hvpos : 0 < v := lt_of_lt_of_le (by norm_num; positivity) hl
  have hspacing : spacing v = e - 1 := by
    apply le_antisymm
    · apply spacing_le hvpos _ (by omega)
      rw [add_comm, zpow_add₀ (by norm_num)]
      norm_num at hu ⊢
      linarith
    · have hlow : ((2 ^ 53 - 1 : ℕ) : ℚ) * 2 ^ (e - 1) ≤ v := by
        refine le_trans ?_ hl
        push_cast
        linarith
      have hsome := le_spacing (m := 2 ^ 53 - 1) (e := e - 1) (Or.inl (by norm_num))
      exact hsome.trans (spacing_mono (by positivity) hlow)
  have hround : roundEven (v / 2 ^ (e - 1)) = 2 ^ 53 := by
    apply roundEven_eq_of_even (by norm_num)
    · rw [le_div_iff₀ hpos]
      push_cast
      linarith
    · rw [div_le_iff₀ hpos]
      push_cast
      linarith
  rw [nearest_of_nonneg hvpos.le, nearestPositive, hspacing, hround]
  push_cast
  ring

/-- A float is the nearest one to every number of its interval. -/
theorem RoundsBack.nearest_eq (hm : 0 < m) (hm' : m < 2 ^ 53) (he : -1074 ≤ e)
    (hor : 2 ^ 52 ≤ m ∨ e = -1074) (h : RoundsBack m e v) : nearest v = m * 2 ^ e := by
  have hpos : (0 : ℚ) < 2 ^ e := by positivity
  have hvpos : 0 < v := h.pos hm
  have hspacing : spacing v ≤ e := by
    apply spacing_le hvpos _ he
    have hm'' : (m : ℚ) + 1 ≤ 2 ^ 53 := by exact_mod_cast hm'
    calc v ≤ (m + 1 / 2) * 2 ^ e := h.le_upperEnd
      _ < 2 ^ 53 * 2 ^ e := mul_lt_mul_of_pos_right (by linarith) hpos
      _ = 2 ^ (e + 53) := by
        rw [add_comm, zpow_add₀ (by norm_num)]
        norm_cast
  -- only just below a power of two is the spacing smaller
  by_cases hpower : e ≠ -1074 ∧ v < 2 ^ 52 * 2 ^ e
  · have hm52 : 2 ^ 52 ≤ m := hor.resolve_right hpower.1
    have heq : m = 2 ^ 52 := by
      by_contra hne
      have hm1 : (2 : ℚ) ^ 52 + 1 ≤ m := by exact_mod_cast lt_of_le_of_ne hm52 (Ne.symm hne)
      have hlow := h.lowerEnd_le
      rw [lowerEnd, if_neg (fun hc => hne hc.1)] at hlow
      have : (2 : ℚ) ^ 52 * 2 ^ e ≤ (m - 1 / 2) * 2 ^ e :=
        mul_le_mul_of_nonneg_right (by linarith) hpos.le
      linarith [hpower.2]
    have hlow := h.lowerEnd_le
    rw [lowerEnd, if_pos ⟨heq, hpower.1⟩] at hlow
    subst heq
    push_cast at hlow ⊢
    exact nearest_of_lt_pow (lt_of_le_of_ne he (Ne.symm hpower.1)) hlow hpower.2
  · apply nearest_of_spacing_eq hm (le_antisymm hspacing _) h
    by_cases hleast : e = -1074
    · rw [hleast]
      exact least_le_spacing v
    · have hge : (2 : ℚ) ^ 52 * 2 ^ e ≤ v := not_lt.1 fun hlt => hpower ⟨hleast, hlt⟩
      have hsome := le_spacing (m := 2 ^ 52) (e := e) (Or.inl le_rfl)
      push_cast at hsome
      exact hsome.trans (spacing_mono (by positivity) hge)

end

end TileWorld.Binary
