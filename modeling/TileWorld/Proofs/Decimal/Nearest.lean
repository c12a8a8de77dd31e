import TileWorld.Decimal.Exact
import TileWorld.Proofs.Binary.Order

/-! The nearest multiple of a step, with the even one of two. That of a larger number is no smaller
one. A quotient of whole numbers is rounded to it. -/

namespace TileWorld

/-- Of the multiples of `step`, the `n`-th is nearest to `q`, and `n` is even if another one is as
near. -/
structure NearestMultiple (step q : ℚ) (n : ℤ) : Prop where
  nearest : ∀ k : ℤ, |q - n * step| ≤ |q - k * step|
  even_of_tie : ∀ k : ℤ, k ≠ n → |q - k * step| = |q - n * step| → n % 2 = 0

namespace NearestMultiple
variable {step q q' : ℚ} {n n' : ℤ}

theorem neg (h : NearestMultiple step q n) : NearestMultiple step (-q) (-n) := by
  have hflip (k : ℤ) : |-q - k * step| = |q - (-k : ℤ) * step| := by
    rw [← abs_neg]
    congr 1
    push_cast
    ring
  constructor
  · intro k
    rw [hflip, hflip, neg_neg]
    exact h.nearest (-k)
  · intro k hk htie
    rw [hflip, hflip, neg_neg] at htie
    have heven := h.even_of_tie (-k) (by omega) htie
    omega

/-- Rounding in units is rounding on the scale. -/
theorem scale (hstep : 0 < step) (h : NearestMultiple 1 (q / step) n) :
    NearestMultiple step q n := by
  have hscale (k : ℤ) : |q - k * step| = |q / step - k * 1| * step := by
    rw [← abs_of_pos hstep, ← abs_mul, abs_of_pos hstep, mul_one, sub_mul,
      div_mul_cancel₀ _ hstep.ne']
  constructor
  · intro k
    rw [hscale, hscale]
    exact mul_le_mul_of_nonneg_right (h.nearest k) hstep.le
  · intro k hk htie
    rw [hscale, hscale] at htie
    exact h.even_of_tie k hk (mul_right_cancel₀ hstep.ne' htie)

section
variable {k : ℤ} (hstep : 0 < step)
include hstep

/-- A multiple is nearest to no number that is closer to a smaller one. -/
theorem midpoint_le (h : NearestMultiple step q n) (hk : k < n) : (k + n) * step / 2 ≤ q := by
  by_contra hlt
  have hk' : (k : ℚ) * step < n * step := mul_lt_mul_of_pos_right (by exact_mod_cast hk) hstep
  have hcloser : |q - k * step| < n * step - q := abs_lt.2 ⟨by linarith, by linarith⟩
  have hdistance : n * step - q ≤ |q - n * step| := by
    rw [abs_sub_comm]
    exact le_abs_self _
  exact absurd (hdistance.trans (h.nearest k)) (not_le.2 hcloser)

theorem le_midpoint (h : NearestMultiple step q n) (hk : n < k) : q ≤ (n + k) * step / 2 := by
  have hmid := h.neg.midpoint_le hstep (neg_lt_neg hk)
  push_cast at hmid
  linarith

theorem mono (h : NearestMultiple step q n) (h' : NearestMultiple step q' n') (hq : q ≤ q') :
    n ≤ n' := by
  by_contra hlt
  have hlower := h.midpoint_le hstep (not_le.1 hlt)
  have hupper := h'.le_midpoint hstep (not_le.1 hlt)
  -- both numbers lie midway between the two multiples, so both multiples are even
  obtain rfl : q = q' := by linarith
  have htie : |q - n * step| = |q - n' * step| := by
    rw [← abs_neg]
    congr 1
    linarith
  have heven := h.even_of_tie n' (by omega) htie.symm
  have heven' := h'.even_of_tie n (by omega) htie
  -- the multiple between them is nearer still
  have hbetween := h'.le_midpoint hstep (Int.lt_succ n')
  have hgap : (n' : ℚ) + 2 ≤ n := by exact_mod_cast (by omega : n' + 2 ≤ n)
  have hgap' : ((n' : ℚ) + 2) * step ≤ n * step := mul_le_mul_of_nonneg_right hgap hstep.le
  push_cast at hbetween
  linarith

end

end NearestMultiple

namespace Binary

theorem roundEven_even_of_tie {q : ℚ} (h : |q - roundEven q| = 1 / 2) : roundEven q % 2 = 0 := by
  have hfloor := Int.floor_le q
  have hfloor' := Int.lt_floor_add_one q
  unfold roundEven at h ⊢
  split_ifs at h ⊢ with hlt heq
  · rw [abs_of_nonneg (by linarith)] at h
    linarith
  · omega
  · push_cast at h
    rw [abs_of_neg (by linarith)] at h
    exact absurd (by linarith) heq

theorem nearestMultiple_roundEven (q : ℚ) : NearestMultiple 1 q (roundEven q) := by
  have hhalf := abs_roundEven_sub_le q
  rw [abs_sub_comm] at hhalf
  -- the others are a whole step away
  have hfar {k : ℤ} (hk : k ≠ roundEven q) : 1 / 2 ≤ |q - k| := by
    have hstep : (1 : ℚ) ≤ |(k : ℚ) - roundEven q| := by
      exact_mod_cast Int.one_le_abs (sub_ne_zero.2 hk)
    have htriangle := abs_sub_le (k : ℚ) q (roundEven q)
    rw [abs_sub_comm (k : ℚ) q] at htriangle
    linarith
  constructor
  · intro k
    rw [mul_one, mul_one]
    rcases eq_or_ne k (roundEven q) with rfl | hk
    · exact le_rfl
    · exact hhalf.trans (hfar hk)
  · intro k hk htie
    rw [mul_one, mul_one] at htie
    exact roundEven_even_of_tie (le_antisymm hhalf (htie ▸ hfar hk))

end Binary

namespace Decimal
open Binary

theorem natCast_div_eq_add (num : ℕ) {den : ℕ} (hd : 0 < den) :
    (num / den : ℚ) = (num / den : ℕ) + (num % den : ℕ) / den := by
  have hd' : (0 : ℚ) < den := by exact_mod_cast hd
  rw [div_eq_iff hd'.ne', add_mul, div_mul_cancel₀ _ hd'.ne', mul_comm]
  exact_mod_cast (Nat.div_add_mod num den).symm

/-- Rounding a quotient by its remainder is rounding its value. -/
theorem roundDiv_toEven (num : ℕ) {den : ℕ} (hd : 0 < den) :
    (roundDiv .toEven num den : ℤ) = roundEven (num / den) := by
  have hd' : (0 : ℚ) < den := by exact_mod_cast hd
  have hfloor : ⌊(num / den : ℚ)⌋ = (num / den : ℕ) := Rat.floor_natCast_div_natCast num den
  have hquot := natCast_div_eq_add num hd
  unfold roundDiv roundEven
  rw [hfloor, Int.cast_natCast, hquot]
  rcases lt_trichotomy (2 * (num % den)) den with h | h | h
  · have hlt : ((num % den : ℕ) : ℚ) / den < 1 / 2 := by
      have h' : 2 * ((num % den : ℕ) : ℚ) < den := by exact_mod_cast h
      rw [div_lt_iff₀ hd']
      linarith
    rw [compare_lt_iff_lt.2 h, if_pos (by linarith)]
  · have heq : ((num % den : ℕ) : ℚ) / den = 1 / 2 := by
      have h' : 2 * ((num % den : ℕ) : ℚ) = den := by exact_mod_cast h
      rw [div_eq_iff hd'.ne']
      linarith
    rw [compare_eq_iff_eq.2 h, heq, if_neg (lt_irrefl _), if_pos rfl]
    push_cast
    rfl
  · have hgt : 1 / 2 < ((num % den : ℕ) : ℚ) / den := by
      have h' : (den : ℚ) < 2 * ((num % den : ℕ) : ℚ) := by exact_mod_cast h
      rw [lt_div_iff₀ hd']
      linarith
    rw [compare_gt_iff_gt.2 h, if_neg (by linarith), if_neg (by linarith)]
    push_cast
    rfl

end Decimal

end TileWorld
