import TileWorld.Proofs.Binary.Increment

/-! How large a rounded result can get. Rounding does not lead beyond a float, so a bound that is a
float itself survives it. A sum stays where it is once it is far larger than what is added. -/

namespace TileWorld.Binary

/-- The least number from which on the spacing grows with the numbers. -/
def leastNormal : ℚ := 2 ^ (-1022 : ℤ)

theorem leastNormal_pos : 0 < leastNormal := zpow_pos (by norm_num) _

theorem leastNormal_le_half : leastNormal ≤ 1 / 2 := by
  have hle : leastNormal ≤ 2 ^ (-1 : ℤ) := zpow_le_zpow_right₀ (by norm_num) (by norm_num)
  rwa [zpow_neg_one, ← one_div] at hle

/-- Rounding a number that is not subnormal changes a small part of it at most. -/
theorem abs_nearest_sub_le_div {a : ℚ} (ha : leastNormal ≤ a) :
    |nearest a - a| ≤ a / 2 ^ 53 := by
  have hpos : 0 < a := leastNormal_pos.trans_le ha
  have hlog : -1022 ≤ Int.log 2 a := by
    rw [← Int.zpow_le_iff_le_log (by norm_num) hpos, Nat.cast_ofNat]
    exact ha
  have hspacing : spacing a = Int.log 2 a - 52 := by
    unfold spacing
    omega
  have hstep : (2 : ℚ) ^ spacing a ≤ a / 2 ^ 52 := by
    rw [hspacing, zpow_sub₀ (by norm_num)]
    exact div_le_div_of_nonneg_right (Int.zpow_log_le_self (by norm_num) hpos) (by norm_num)
  rw [nearest_of_nonneg hpos.le]
  calc |nearestPositive a - a| ≤ 2 ^ spacing a / 2 := abs_nearestPositive_sub_le a
    _ ≤ a / 2 ^ 52 / 2 := div_le_div_of_nonneg_right hstep (by norm_num)
    _ = a / 2 ^ 53 := by ring

theorem nearest_le_mul {a : ℚ} (ha : 1 / 2 ≤ a) : nearest a ≤ a * (1 + 1 / 2 ^ 53) := by
  have hround := abs_le.1 (abs_nearest_sub_le_div (leastNormal_le_half.trans ha))
  linarith [hround.2]

theorem nearest_nonneg {a : ℚ} (ha : 0 ≤ a) : 0 ≤ nearest a := by
  rw [nearest_of_nonneg ha]
  exact nearestPositive_nonneg ha

theorem nearest?_of_le {a : ℚ} (ha : 0 ≤ a) (h : a ≤ (2 ^ 53 - 1 : ℕ) * 2 ^ (971 : ℤ)) :
    nearest? a = some (nearest a) := by
  apply nearest?_eq
  rw [abs_of_nonneg (nearest_nonneg ha)]
  have hlargest : nearest (((2 ^ 53 - 1 : ℕ) : ℤ) * 2 ^ (971 : ℤ)) = _ :=
    nearest_eq_self (by norm_num) (by norm_num)
  refine lt_of_le_of_lt ((nearest_mono h).trans (le_of_eq hlargest)) ?_
  exact mul_zpow_lt (m := 2 ^ 53 - 1) (by norm_num) le_rfl

theorem nearest_two_pow (k : ℕ) : nearest (2 ^ k) = 2 ^ k := by
  have hself := nearest_eq_self (n := 1) (e := k) (by norm_num) (by omega)
  rwa [Int.cast_one, one_mul, zpow_natCast] at hself

theorem lt_of_nearest_lt {q : ℚ} {k : ℕ} (h : nearest q < 2 ^ k) : q < 2 ^ k := by
  by_contra hle
  have hmono := nearest_mono (not_lt.1 hle)
  rw [nearest_two_pow] at hmono
  exact absurd h (not_lt.2 hmono)

theorem abs_nearest_le {q b : ℚ} (hb : nearest b = b) (h : |q| ≤ b) : |nearest q| ≤ b := by
  obtain ⟨hlower, hupper⟩ := abs_le.1 h
  have hmono := nearest_mono hlower
  have hmono' := nearest_mono hupper
  rw [nearest_neg, hb] at hmono
  rw [hb] at hmono'
  exact abs_le.2 ⟨hmono, hmono'⟩

/-- What is not larger than a float is not rounded beyond it. -/
theorem nearest?_of_le_float {w q : ℚ} (hw : nearest w = w) (hfinite : w < 2 ^ 1024) (hq : 0 ≤ q)
    (hle : q ≤ w) : nearest? q = some (nearest q) ∧ 0 ≤ nearest q ∧ nearest q ≤ w := by
  have hbound := abs_nearest_le hw (by rwa [abs_of_nonneg hq])
  exact ⟨nearest?_eq (hbound.trans_lt hfinite), nearest_nonneg hq, (abs_le.1 hbound).2⟩

theorem abs_lt_of_abs_nearest_lt {q : ℚ} {k : ℕ} (h : |nearest q| < 2 ^ k) : |q| < 2 ^ k := by
  rw [abs_lt] at h ⊢
  have hneg := lt_of_nearest_lt (q := -q) (k := k) (by rw [nearest_neg]; linarith)
  exact ⟨by linarith, lt_of_nearest_lt h.2⟩

theorem nearest?_of_abs_le {q : ℚ} {k : ℕ} (hk : k < 1024) (h : |q| ≤ 2 ^ k) :
    nearest? q = some (nearest q) ∧ |nearest q| ≤ 2 ^ k := by
  have hle := abs_nearest_le (nearest_two_pow k) h
  have hlt : (2 : ℚ) ^ k < 2 ^ 1024 := pow_lt_pow_right₀ (by norm_num) hk
  exact ⟨nearest?_eq (hle.trans_lt hlt), hle⟩

/-- A bound is not passed by adding less than half of the spacing of the floats beyond it. -/
theorem abs_nearest_add_le {a s : ℚ} {k : ℕ} (ha : |a| ≤ 2 ^ (k + 52)) (hs : |s| < 2 ^ k / 2) :
    |nearest (a + s)| ≤ 2 ^ (k + 52) := by
  have hpow : ((2 ^ 52 : ℕ) : ℚ) * 2 ^ (k : ℤ) = 2 ^ (k + 52) := by
    rw [zpow_natCast, pow_add, mul_comm]
    norm_num
  have hadd (t : ℚ) (ht : 0 ≤ t) (ht' : t < 2 ^ k / 2) :
      nearest (2 ^ (k + 52) + t) = 2 ^ (k + 52) := by
    have hlost := nearest_add_eq_self (m := 2 ^ 52) (e := k) le_rfl (by norm_num) (by omega) ht
      (by rwa [zpow_natCast])
    rwa [hpow] at hlost
  obtain ⟨hlower, hupper⟩ := abs_le.1 ha
  have hself := hadd |s| (abs_nonneg s) hs
  have hmono : nearest (-(2 ^ (k + 52) + |s|)) ≤ nearest (a + s) :=
    nearest_mono (by linarith [neg_abs_le s])
  have hmono' : nearest (a + s) ≤ nearest (2 ^ (k + 52) + |s|) :=
    nearest_mono (by linarith [le_abs_self s])
  rw [nearest_neg, hself] at hmono
  rw [hself] at hmono'
  exact abs_le.2 ⟨hmono, hmono'⟩

/-- The float `x` is a number of magnitude `b` at most. -/
def Within (b : ℚ) (x : Float) : Prop := ∃ q, value? x = some q ∧ |q| ≤ b

/-- The result of rounding has the bound that the exact one has. -/
theorem within_of_nearest? {x : Float} {q : ℚ} {k : ℕ} (hx : value? x = nearest? q)
    (h : |q| ≤ 2 ^ k) (hk : k < 1024) : Within (2 ^ k) x := by
  obtain ⟨hnearest, hbound⟩ := nearest?_of_abs_le hk h
  exact ⟨_, hx.trans hnearest, hbound⟩

theorem within_zero (k : ℕ) : Within (2 ^ k) 0 := by
  refine ⟨0, value?_zero, ?_⟩
  rw [abs_zero]
  positivity

namespace Within
variable {b : ℚ} {x y : Float}

theorem mono {i j : ℕ} (h : Within (2 ^ i) x) (hij : i ≤ j) : Within (2 ^ j) x := by
  obtain ⟨q, hq, hle⟩ := h
  exact ⟨q, hq, hle.trans (pow_le_pow_right₀ (by norm_num) hij)⟩

theorem neg (h : Within b x) : Within b (-x) := by
  obtain ⟨q, hq, hle⟩ := h
  exact ⟨-q, value?_neg hq, by rwa [abs_neg]⟩

/-- The product of bounds bounds a product, as long as it is a float. -/
theorem mul {i j : ℕ} (hx : Within (2 ^ i) x) (hy : Within (2 ^ j) y) (hij : i + j < 1024) :
    Within (2 ^ (i + j)) (x * y) := by
  obtain ⟨a, ha, hale⟩ := hx
  obtain ⟨c, hc, hcle⟩ := hy
  have hle : |a * c| ≤ 2 ^ (i + j) := by
    rw [abs_mul, pow_add]
    exact mul_le_mul hale hcle (abs_nonneg c) (by positivity)
  exact within_of_nearest? (value?_mul ha hc) hle hij

/-- A factor of magnitude one at most leaves a bound as it is, whatever number the bound is. -/
theorem mul_of_le_one (hx : Within b x) (hy : Within 1 y) : Within b (x * y) := by
  obtain ⟨a, ha, hale⟩ := hx
  obtain ⟨c, hc, hcle⟩ := hy
  have hself : nearest |a| = |a| := by
    rcases abs_choice a with h | h <;> rw [h]
    · exact nearest_of_value? ha
    · rw [nearest_neg, nearest_of_value? ha]
  have hbound : |nearest (a * c)| ≤ |a| := by
    apply abs_nearest_le hself
    rw [abs_mul]
    exact mul_le_of_le_one_right (abs_nonneg a) hcle
  have hfinite : |a| < 2 ^ 1024 :=
    (abs_le_of_value? ha).trans_lt (sub_lt_self _ (by positivity))
  exact ⟨_, (value?_mul ha hc).trans (nearest?_eq (hbound.trans_lt hfinite)), hbound.trans hale⟩

theorem add {i : ℕ} (hx : Within (2 ^ i) x) (hy : Within (2 ^ i) y) (hi : i + 1 < 1024) :
    Within (2 ^ (i + 1)) (x + y) := by
  obtain ⟨a, ha, hale⟩ := hx
  obtain ⟨c, hc, hcle⟩ := hy
  have hle : |a + c| ≤ 2 ^ (i + 1) := by
    rw [pow_succ]
    linarith [abs_add_le a c]
  exact within_of_nearest? (value?_add ha hc) hle hi

theorem sub {i : ℕ} (hx : Within (2 ^ i) x) (hy : Within (2 ^ i) y) (hi : i + 1 < 1024) :
    Within (2 ^ (i + 1)) (x - y) := by
  obtain ⟨a, ha, hale⟩ := hx
  obtain ⟨c, hc, hcle⟩ := hy
  have hle : |a - c| ≤ 2 ^ (i + 1) := by
    rw [pow_succ]
    linarith [abs_sub a c]
  exact within_of_nearest? (value?_sub ha hc) hle hi

/-- A bound that is far larger than what is added bounds the sum as well. -/
theorem add_small {j k : ℕ} (hx : Within (2 ^ (k + 52)) x) (hy : Within (2 ^ j) y)
    (hj : j + 1 < k) (hk : k + 52 < 1024) : Within (2 ^ (k + 52)) (x + y) := by
  obtain ⟨a, ha, hale⟩ := hx
  obtain ⟨c, hc, hcle⟩ := hy
  have hsmall : (2 : ℚ) ^ j < 2 ^ k / 2 := by
    rw [lt_div_iff₀ (by norm_num), ← pow_succ]
    exact pow_lt_pow_right₀ (by norm_num) hj
  have hbound := abs_nearest_add_le hale (hcle.trans_lt hsmall)
  have hlt : (2 : ℚ) ^ (k + 52) < 2 ^ 1024 := pow_lt_pow_right₀ (by norm_num) hk
  exact ⟨_, (value?_add ha hc).trans (nearest?_eq (hbound.trans_lt hlt)), hbound⟩

/-- If a sum is bounded, what is added to a bounded number is. -/
theorem of_add {i : ℕ} (hx : Within (2 ^ i) x) (hadd : Within (2 ^ i) (x + y)) :
    Within (2 ^ (i + 2)) y := by
  obtain ⟨a, ha, hale⟩ := hx
  obtain ⟨q, hq, hle⟩ := hadd
  cases hy : value? y with
  | none =>
    rw [value?_add_of_none_right ha hy] at hq
    cases hq
  | some c =>
    refine ⟨c, hy, ?_⟩
    have hnearest := nearest_of_nearest? ((value?_add ha hy).symm.trans hq)
    have hpow : (2 : ℚ) ^ (i + 1) = 2 * 2 ^ i := pow_succ' 2 i
    have hpow' : (2 : ℚ) ^ (i + 2) = 4 * 2 ^ i := by
      rw [pow_add]
      ring
    have hpos : (0 : ℚ) < 2 ^ i := by positivity
    have hlt : |a + c| < 2 ^ (i + 1) := by
      apply abs_lt_of_abs_nearest_lt
      rw [hnearest, hpow]
      linarith
    have htriangle := abs_sub_abs_le_abs_sub c (-a)
    rw [abs_neg, sub_neg_eq_add, add_comm c a] at htriangle
    rw [hpow']
    linarith

/-- If a product with a number that is not small is bounded, the other factor is. -/
theorem of_mul {i j : ℕ} {c : ℚ} (hmul : Within (2 ^ i) (x * y)) (hy : value? y = some c)
    (hc : 1 / 2 ^ j ≤ c) : Within (2 ^ (i + 1 + j)) x := by
  obtain ⟨q, hq, hle⟩ := hmul
  cases hx : value? x with
  | none =>
    rw [value?_mul_of_none hx] at hq
    cases hq
  | some a =>
    refine ⟨a, hx, ?_⟩
    have hnearest := nearest_of_nearest? ((value?_mul hx hy).symm.trans hq)
    have hlt : |a * c| < 2 ^ (i + 1) := by
      apply abs_lt_of_abs_nearest_lt
      rw [hnearest]
      exact hle.trans_lt (pow_lt_pow_right₀ (by norm_num) (Nat.lt_succ_self i))
    have hpos : 0 < c := lt_of_lt_of_le (by positivity) hc
    rw [abs_mul, abs_of_pos hpos] at hlt
    have hsmall : |a| * (1 / 2 ^ j) ≤ |a| * c := mul_le_mul_of_nonneg_left hc (abs_nonneg a)
    rw [mul_one_div] at hsmall
    have hdiv := (div_le_iff₀ (by positivity)).1 (hsmall.trans hlt.le)
    rwa [pow_add]

end Within

end TileWorld.Binary
