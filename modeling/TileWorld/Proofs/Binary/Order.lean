import TileWorld.Proofs.Binary.Rounding

/-! Rounding keeps the order of numbers, and moves a number by no more than half of the spacing of
the floats around it. -/

namespace TileWorld.Binary

theorem roundEven_mono {a b : ℚ} (h : a ≤ b) : roundEven a ≤ roundEven b := by
  rcases (Int.floor_mono h).lt_or_eq with hlt | heq
  · exact (roundEven_le_floor_add_one a).trans (hlt.trans_le (floor_le_roundEven b))
  · -- the two lie between the same whole numbers, so the midpoint between those decides
    rw [roundEven, roundEven, heq]
    rcases lt_trichotomy a (⌊b⌋ + 1 / 2) with ha | ha | ha
    · rw [if_pos ha]
      split_ifs <;> omega
    · have hb : ¬ b < ⌊b⌋ + 1 / 2 := by linarith
      rw [if_neg ha.not_lt, if_pos ha, if_neg hb]
      split_ifs <;> omega
    · have hb : ⌊b⌋ + 1 / 2 < b := ha.trans_le h
      rw [if_neg ha.not_gt, if_neg ha.ne', if_neg hb.not_gt, if_neg hb.ne']

theorem abs_roundEven_sub_le (q : ℚ) : |(roundEven q : ℚ) - q| ≤ 1 / 2 := by
  have hfloor := Int.floor_le q
  have hfloor' := Int.lt_floor_add_one q
  rw [abs_le]
  unfold roundEven
  split_ifs with hlt heq
  · constructor <;> linarith
  · have hparity : (0 : ℚ) ≤ ((⌊q⌋ % 2 : ℤ) : ℚ) ∧ ((⌊q⌋ % 2 : ℤ) : ℚ) ≤ 1 := by
      have := Int.emod_two_eq_zero_or_one ⌊q⌋
      constructor
      · exact_mod_cast (by omega : 0 ≤ ⌊q⌋ % 2)
      · exact_mod_cast (by omega : ⌊q⌋ % 2 ≤ 1)
    push_cast
    constructor <;> linarith
  · have hgt : (⌊q⌋ : ℚ) + 1 / 2 < q := lt_of_le_of_ne (not_lt.1 hlt) (Ne.symm heq)
    push_cast
    constructor <;> linarith

theorem spacing_mono {a b : ℚ} (ha : 0 < a) (h : a ≤ b) : spacing a ≤ spacing b :=
  max_le_max_right _ (sub_le_sub_right (Int.log_mono_right ha h) 52)

theorem nearestPositive_nonneg {q : ℚ} (hq : 0 ≤ q) : 0 ≤ nearestPositive q := by
  have hround : 0 ≤ roundEven (q / 2 ^ spacing q) :=
    (Int.floor_nonneg.2 (by positivity)).trans (floor_le_roundEven _)
  exact mul_nonneg (by exact_mod_cast hround) (by positivity)

theorem abs_nearestPositive_sub_le (q : ℚ) : |nearestPositive q - q| ≤ 2 ^ spacing q / 2 := by
  have hpos : (0 : ℚ) < 2 ^ spacing q := by positivity
  have hround := abs_roundEven_sub_le (q / 2 ^ spacing q)
  calc |nearestPositive q - q|
      = |roundEven (q / 2 ^ spacing q) - q / 2 ^ spacing q| * 2 ^ spacing q := by
        rw [← abs_of_pos hpos, ← abs_mul, abs_of_pos hpos, sub_mul, div_mul_cancel₀ _ hpos.ne',
          nearestPositive]
    _ ≤ 1 / 2 * 2 ^ spacing q := mul_le_mul_of_nonneg_right hround hpos.le
    _ = 2 ^ spacing q / 2 := by ring

theorem nearestPositive_mono {a b : ℚ} (ha : 0 ≤ a) (h : a ≤ b) :
    nearestPositive a ≤ nearestPositive b := by
  rcases ha.eq_or_lt with rfl | hpos
  · rw [nearestPositive, zero_div, ← Int.cast_zero, roundEven_intCast, Int.cast_zero, zero_mul]
    exact nearestPositive_nonneg h
  rcases (spacing_mono hpos h).lt_or_eq with hlt | heq
  · -- a number with a smaller spacing is rounded to the first float of the larger one at most
    have hround := (le_roundEven_or (hpos.trans_le h)).resolve_right
      (ne_of_gt ((least_le_spacing a).trans_lt hlt))
    have hround' := roundEven_le a
    calc nearestPositive a ≤ 2 ^ 53 * 2 ^ spacing a :=
          mul_le_mul_of_nonneg_right (by exact_mod_cast hround') (by positivity)
      _ = 2 ^ 52 * 2 ^ (spacing a + 1) := by
          rw [zpow_add_one₀ (by norm_num)]
          ring
      _ ≤ 2 ^ 52 * 2 ^ spacing b := by
          apply mul_le_mul_of_nonneg_left _ (by positivity)
          exact zpow_le_zpow_right₀ (by norm_num) hlt
      _ ≤ nearestPositive b :=
          mul_le_mul_of_nonneg_right (by exact_mod_cast hround) (by positivity)
  · have hdiv : a / 2 ^ spacing b ≤ b / 2 ^ spacing b :=
      div_le_div_of_nonneg_right h (by positivity)
    rw [nearestPositive, nearestPositive, heq]
    exact mul_le_mul_of_nonneg_right (by exact_mod_cast roundEven_mono hdiv) (by positivity)

theorem nearest_of_nonneg {q : ℚ} (hq : 0 ≤ q) : nearest q = nearestPositive q := if_pos hq

theorem nearest_mono {a b : ℚ} (h : a ≤ b) : nearest a ≤ nearest b := by
  rcases le_or_gt 0 a with ha | ha
  · rw [nearest_of_nonneg ha, nearest_of_nonneg (ha.trans h)]
    exact nearestPositive_mono ha h
  have ha' : nearest a = -nearestPositive (-a) := if_neg (not_le.2 ha)
  rcases le_or_gt 0 b with hb | hb
  · rw [ha', nearest_of_nonneg hb]
    exact (neg_nonpos.2 (nearestPositive_nonneg (by linarith))).trans (nearestPositive_nonneg hb)
  · have hb' : nearest b = -nearestPositive (-b) := if_neg (not_le.2 hb)
    rw [ha', hb']
    exact neg_le_neg (nearestPositive_mono (by linarith) (neg_le_neg h))

/-- What is rounded to one at most is less than five quarters, which are a float. -/
theorem abs_lt_of_abs_nearest_le_one {q : ℚ} (h : |nearest q| ≤ 1) : |q| < 5 / 4 := by
  have hself : nearest (5 / 4) = 5 / 4 := by
    have hexact := nearest_eq_self (n := 5) (e := -2) (by norm_num) (by norm_num)
    norm_num at hexact
    exact hexact
  obtain ⟨hlower, hupper⟩ := abs_le.1 h
  rw [abs_lt]
  constructor <;> by_contra hfar
  · have hmono := nearest_mono (not_lt.1 hfar)
    rw [nearest_neg, hself] at hmono
    linarith
  · have hmono := nearest_mono (not_lt.1 hfar)
    rw [hself] at hmono
    linarith

end TileWorld.Binary
