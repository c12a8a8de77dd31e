import TileWorld.Proofs.Binary.Magnitude

/-! Numbers that are a few roundings apart. Each rounding of a number that is not subnormal counts
once, products and quotients add up what their parts have, and it does not matter which of the two
numbers is the rounded one. -/

namespace TileWorld.Binary

/-- What one rounding leaves of a number at least. -/
def slack : ℚ := 1 - 1 / 2 ^ 53

theorem slack_pos : 0 < slack := by norm_num [slack]

theorem slack_le_one : slack ≤ 1 := by norm_num [slack]

/-- Two numbers that are no more than `k` roundings apart. -/
structure Near (k : ℕ) (a b : ℚ) : Prop where
  le : a * slack ^ k ≤ b
  ge : b * slack ^ k ≤ a

/-- A rounded number is near the number itself. -/
theorem near_nearest {a : ℚ} (ha : leastNormal ≤ a) : Near 1 (nearest a) a := by
  have hpos : 0 < a := leastNormal_pos.trans_le ha
  have hround := abs_le.1 (abs_nearest_sub_le_div ha)
  constructor
  · calc nearest a * slack ^ 1 ≤ (a + a / 2 ^ 53) * slack ^ 1 :=
          mul_le_mul_of_nonneg_right (by linarith [hround.2]) (pow_nonneg slack_pos.le 1)
      _ = a - a / 2 ^ 106 := by
          rw [slack]
          ring
      _ ≤ a := sub_le_self a (by positivity)
  · rw [slack]
    linarith [hround.1]

namespace Near
variable {k l : ℕ} {a b c d : ℚ}

theorem trans (h : Near k a b) (h' : Near l b c) : Near (k + l) a c := by
  have hk : (0 : ℚ) ≤ slack ^ k := pow_nonneg slack_pos.le k
  have hl : (0 : ℚ) ≤ slack ^ l := pow_nonneg slack_pos.le l
  constructor
  · calc a * slack ^ (k + l) = a * slack ^ k * slack ^ l := by ring
      _ ≤ b * slack ^ l := mul_le_mul_of_nonneg_right h.le hl
      _ ≤ c := h'.le
  · calc c * slack ^ (k + l) = c * slack ^ l * slack ^ k := by ring
      _ ≤ b * slack ^ k := mul_le_mul_of_nonneg_right h'.ge hk
      _ ≤ a := h.ge

theorem mono (h : Near k a b) (ha : 0 ≤ a) (hb : 0 ≤ b) (hkl : k ≤ l) : Near l a b := by
  have hpow : slack ^ l ≤ slack ^ k := pow_le_pow_of_le_one slack_pos.le slack_le_one hkl
  exact ⟨(mul_le_mul_of_nonneg_left hpow ha).trans h.le,
    (mul_le_mul_of_nonneg_left hpow hb).trans h.ge⟩

theorem pos (h : Near k a b) (hb : 0 < b) : 0 < a :=
  lt_of_lt_of_le (mul_pos hb (pow_pos slack_pos k)) h.ge

theorem mul (h : Near k a b) (h' : Near l c d) (hb : 0 < b) (hd : 0 < d) :
    Near (k + l) (a * c) (b * d) := by
  have hc := h'.pos hd
  have hk : (0 : ℚ) ≤ slack ^ k := pow_nonneg slack_pos.le k
  have hl : (0 : ℚ) ≤ slack ^ l := pow_nonneg slack_pos.le l
  constructor
  · calc a * c * slack ^ (k + l) = a * slack ^ k * (c * slack ^ l) := by ring
      _ ≤ b * d := mul_le_mul h.le h'.le (mul_nonneg hc.le hl) hb.le
  · calc b * d * slack ^ (k + l) = b * slack ^ k * (d * slack ^ l) := by ring
      _ ≤ a * c := mul_le_mul h.ge h'.ge (mul_nonneg hd.le hl) (h.pos hb).le

theorem inv (h : Near k a b) (hb : 0 < b) : Near k a⁻¹ b⁻¹ := by
  have ha := h.pos hb
  constructor
  · rw [inv_mul_le_iff₀ ha, ← div_eq_mul_inv, le_div_iff₀ hb, mul_comm]
    exact h.ge
  · rw [inv_mul_le_iff₀ hb, ← div_eq_mul_inv, le_div_iff₀ ha, mul_comm]
    exact h.le

theorem div (h : Near k a b) (h' : Near l c d) (hb : 0 < b) (hd : 0 < d) :
    Near (k + l) (a / c) (b / d) := by
  rw [div_eq_mul_inv, div_eq_mul_inv]
  exact h.mul (h'.inv hd) hb (inv_pos.2 hd)

/-- Rounding once more. -/
theorem nearest (h : Near k a b) (ha : leastNormal ≤ a) : Near (1 + k) (Binary.nearest a) b :=
  (near_nearest ha).trans h

end Near

end TileWorld.Binary
