import TileWorld.Decimal.Shortest
import TileWorld.Proofs.Binary.Interval
import TileWorld.Proofs.Decimal.Nearest

/-! The shortest digits of a float stand for a number that is rounded back to the float. There are
at most seventeen of them, or one followed by seventeen zeros. -/

namespace TileWorld.Decimal
open Binary

def Digits.value (d : Digits) : ℚ := d.coefficient * 10 ^ d.exponent

theorem pow_length_toDigits_le {n : ℕ} (hn : 0 < n) :
    10 ^ ((Nat.toDigits 10 n).length - 1) ≤ n := by
  have hpos : 0 < (Nat.toDigits 10 n).length := Nat.length_toDigits_pos
  rcases Nat.eq_zero_or_pos ((Nat.toDigits 10 n).length - 1) with h | h
  · rw [h]
    exact hn
  · by_contra hlt
    have := (Nat.length_toDigits_le_iff (by norm_num) h).2 (not_le.1 hlt)
    omega

theorem lt_pow_length_toDigits (n : ℕ) : n < 10 ^ (Nat.toDigits 10 n).length :=
  (Nat.length_toDigits_le_iff (by norm_num) Nat.length_toDigits_pos).1 le_rfl

theorem leadingExponent_spec {num den : ℕ} (hn : 0 < num) (hd : 0 < den) :
    (10 : ℚ) ^ leadingExponent num den ≤ num / den ∧
      (num / den : ℚ) < 10 ^ (leadingExponent num den + 1) := by
  have hd' : (0 : ℚ) < den := by exact_mod_cast hd
  rw [le_div_iff₀ hd', div_lt_iff₀ hd']
  unfold leadingExponent
  split
  · next hle =>
    have hlower := pow_length_toDigits_le (Nat.div_pos hle hd)
    have hupper := lt_pow_length_toDigits (num / den)
    have hlength : 0 < (Nat.toDigits 10 (num / den)).length := Nat.length_toDigits_pos
    generalize (Nat.toDigits 10 (num / den)).length = k at *
    obtain ⟨k, rfl⟩ := Nat.exists_eq_add_of_lt hlength
    rw [Nat.le_div_iff_mul_le hd] at hlower
    rw [Nat.div_lt_iff_lt_mul hd] at hupper
    simp only [Nat.zero_add, Nat.add_sub_cancel, Nat.cast_add, Nat.cast_one,
      add_sub_cancel_right] at hlower hupper ⊢
    exact ⟨by exact_mod_cast hlower, by exact_mod_cast hupper⟩
  · next hlt =>
    -- the exponent is that of the quotient upside down, which is rounded so as not to be exact
    have hquot : 0 < (den - 1) / num := Nat.div_pos (by omega) hn
    have hlower := pow_length_toDigits_le hquot
    have hupper := lt_pow_length_toDigits ((den - 1) / num)
    have hlength : 0 < (Nat.toDigits 10 ((den - 1) / num)).length := Nat.length_toDigits_pos
    generalize (Nat.toDigits 10 ((den - 1) / num)).length = k at *
    obtain ⟨k, rfl⟩ := Nat.exists_eq_add_of_lt hlength
    rw [Nat.le_div_iff_mul_le hn] at hlower
    rw [Nat.div_lt_iff_lt_mul hn] at hupper
    simp only [Nat.zero_add, Nat.add_sub_cancel, Nat.cast_add, Nat.cast_one, neg_add_rev,
      neg_add_cancel_comm] at hlower hupper ⊢
    have hupper' : den ≤ 10 ^ (k + 1) * num := by omega
    have hlower' : 10 ^ k * num < den := by omega
    have hupper'' : (den : ℚ) ≤ 10 ^ (k + 1) * num := by exact_mod_cast hupper'
    have hlower'' : (10 : ℚ) ^ k * num < den := by exact_mod_cast hlower'
    constructor
    · rw [← neg_add_rev, zpow_neg, inv_mul_le_iff₀ (by positivity)]
      exact_mod_cast hupper''
    · rw [zpow_neg, lt_inv_mul_iff₀ (by positivity)]
      exact_mod_cast hlower''

theorem zpow_eq_div {b : ℚ} (hb : b ≠ 0) (e : ℤ) : b ^ e = b ^ e.toNat / b ^ (-e).toNat := by
  rw [← zpow_natCast, ← zpow_natCast, ← zpow_sub₀ hb]
  congr 1
  omega

theorem abs_roundDiv_sub_le (tie : Tie) (num : ℕ) {den : ℕ} (hd : 0 < den) :
    |(roundDiv tie num den : ℚ) - num / den| ≤ 1 / 2 := by
  have hd' : (0 : ℚ) < den := by exact_mod_cast hd
  have hlt : num % den < den := Nat.mod_lt _ hd
  rw [natCast_div_eq_add num hd]
  -- rounding goes down below the middle, up above it, and either way at it
  have hdown (h : 2 * (num % den) ≤ den) :
      |((num / den : ℕ) : ℚ) - ((num / den : ℕ) + (num % den : ℕ) / den)| ≤ 1 / 2 := by
    have h' : 2 * ((num % den : ℕ) : ℚ) ≤ den := by exact_mod_cast h
    rw [sub_add_cancel_left, abs_neg, abs_of_nonneg (by positivity), div_le_iff₀ hd']
    linarith
  have hup (h : den ≤ 2 * (num % den)) :
      |((num / den + 1 : ℕ) : ℚ) - ((num / den : ℕ) + (num % den : ℕ) / den)| ≤ 1 / 2 := by
    have h' : (den : ℚ) ≤ 2 * ((num % den : ℕ) : ℚ) := by exact_mod_cast h
    have hone : ((num % den : ℕ) : ℚ) / den ≤ 1 := by
      rw [div_le_one hd']
      exact_mod_cast hlt.le
    have hhalf : 1 / 2 ≤ ((num % den : ℕ) : ℚ) / den := by
      rw [le_div_iff₀ hd']
      linarith
    push_cast
    rw [add_sub_add_left_eq_sub, abs_of_nonneg (by linarith)]
    linarith
  unfold roundDiv
  dsimp only
  rcases lt_trichotomy (2 * (num % den)) den with h | h | h
  · rw [compare_lt_iff_lt.2 h]
    exact hdown h.le
  · rw [compare_eq_iff_eq.2 h]
    cases tie with
    | up => exact hup h.ge
    | toEven =>
      rcases Nat.mod_two_eq_zero_or_one (num / den) with heven | hodd
      · simp only [heven, Nat.add_zero]
        exact hdown h.le
      · simp only [hodd]
        exact hup h.ge
  · rw [compare_gt_iff_gt.2 h]
    exact hup h.le

theorem roundDiv_eq_or (tie : Tie) (num den : ℕ) :
    roundDiv tie num den = num / den ∨ roundDiv tie num den = num / den + 1 := by
  unfold roundDiv
  dsimp only
  split
  · exact Or.inl rfl
  · exact Or.inr rfl
  · exact Or.inr rfl
  · rcases Nat.mod_two_eq_zero_or_one (num / den) with h | h <;> rw [h]
    · exact Or.inl rfl
    · exact Or.inr rfl

namespace Overlay
variable (o : Overlay)

theorem unit_pos : 0 < o.unit := Nat.mul_pos (Nat.pow_pos (by norm_num)) (Nat.pow_pos (by norm_num))

theorem scale_pos : 0 < o.scale :=
  Nat.mul_pos (Nat.pow_pos (by norm_num)) (Nat.pow_pos (by norm_num))

/-- What the two factors compare: steps of the grid, and quarters of the last place. -/
theorem unit_eq : (o.unit : ℚ) = 10 ^ o.grid / (2 ^ o.exponent / 4) * o.scale := by
  have hquarter : (2 : ℚ) ^ o.exponent / 4 = 2 ^ (o.exponent - 2) := by
    rw [zpow_sub₀ (by norm_num)]
    norm_num
  have hneg : -(o.exponent - 2) = 2 - o.exponent := by omega
  rw [hquarter, zpow_eq_div (by norm_num) o.grid, zpow_eq_div (by norm_num) (o.exponent - 2), hneg,
    unit, scale]
  simp only [Nat.pow_eq]
  push_cast
  field_simp

theorem mul_scale_le_iff (n d : ℕ) :
    n * o.scale ≤ d * o.unit ↔ (n : ℚ) * (2 ^ o.exponent / 4) ≤ d * 10 ^ o.grid := by
  have hscale : (0 : ℚ) < o.scale := by exact_mod_cast o.scale_pos
  rw [← Nat.cast_le (α := ℚ)]
  push_cast
  rw [o.unit_eq, ← mul_assoc, mul_le_mul_iff_left₀ hscale, ← mul_div_assoc,
    le_div_iff₀ (by positivity)]

theorem le_mul_scale_iff (n d : ℕ) :
    d * o.unit ≤ n * o.scale ↔ (d : ℚ) * 10 ^ o.grid ≤ n * (2 ^ o.exponent / 4) := by
  have hscale : (0 : ℚ) < o.scale := by exact_mod_cast o.scale_pos
  rw [← Nat.cast_le (α := ℚ)]
  push_cast
  rw [o.unit_eq, ← mul_assoc, mul_le_mul_iff_left₀ hscale, ← mul_div_assoc,
    div_le_iff₀ (by positivity)]

/-- The lower end of the interval in quarters of the last place. -/
theorem exists_lower_eq (hm : 0 < o.mantissa) : ∃ n : ℕ, o.lower = n * o.scale ∧
    (n : ℚ) * (2 ^ o.exponent / 4) = lowerEnd o.mantissa o.exponent := by
  have hquarters (k : ℕ) (hk : k ≤ 2) : ((4 * o.mantissa - k : ℕ) : ℚ) * (2 ^ o.exponent / 4) =
      (o.mantissa - k / 4) * 2 ^ o.exponent := by
    rw [Nat.cast_sub (by omega)]
    push_cast
    ring
  refine ⟨_, rfl, ?_⟩
  rw [hquarters _ (by split <;> omega), lowerEnd]
  by_cases h : o.mantissa = 2 ^ 52 ∧ o.exponent ≠ -1074
  · rw [if_pos (show o.mantissa = leastMantissa ∧ o.exponent ≠ leastExponent from h), if_pos h,
      Nat.cast_one]
  · rw [if_neg (show ¬(o.mantissa = leastMantissa ∧ o.exponent ≠ leastExponent) from h), if_neg h]
    norm_num

theorem upper_quarters :
    ((4 * o.mantissa + 2 : ℕ) : ℚ) * (2 ^ o.exponent / 4) = upperEnd o.mantissa o.exponent := by
  rw [upperEnd]
  push_cast
  ring

/-- The test on whole numbers decides whether the grid point lies in the interval of the float. -/
theorem readsBack_iff (hm : 0 < o.mantissa) (d : ℕ) :
    o.readsBack d = true ↔ RoundsBack o.mantissa o.exponent (d * 10 ^ o.grid) := by
  obtain ⟨n, hlower, hn⟩ := o.exists_lower_eq hm
  unfold readsBack RoundsBack
  rw [hlower, upper]
  split
  · rw [decide_eq_true_eq, mul_scale_le_iff, le_mul_scale_iff, hn, upper_quarters]
  · rw [decide_eq_true_eq, ← not_le, ← not_le, le_mul_scale_iff, mul_scale_le_iff, hn,
      upper_quarters, not_le, not_le]

theorem value_div_unit : (o.value / o.unit : ℚ) = o.mantissa * 2 ^ o.exponent / 10 ^ o.grid := by
  have hscale : (0 : ℚ) < o.scale := by exact_mod_cast o.scale_pos
  rw [o.unit_eq, value]
  push_cast
  field_simp

theorem abs_nearest_sub_le (tie : Tie) :
    |(o.nearest tie : ℚ) * 10 ^ o.grid - o.mantissa * 2 ^ o.exponent| ≤ 10 ^ o.grid / 2 := by
  have hstep : (0 : ℚ) < 10 ^ o.grid := by positivity
  have hround := abs_roundDiv_sub_le tie o.value o.unit_pos
  rw [o.value_div_unit] at hround
  have hscaled : (o.nearest tie : ℚ) * 10 ^ o.grid - o.mantissa * 2 ^ o.exponent =
      (o.nearest tie - o.mantissa * 2 ^ o.exponent / 10 ^ o.grid) * 10 ^ o.grid := by
    rw [sub_mul, div_mul_cancel₀ _ hstep.ne']
  rw [hscaled, abs_mul, abs_of_pos hstep]
  calc |(o.nearest tie : ℚ) - o.mantissa * 2 ^ o.exponent / 10 ^ o.grid| * 10 ^ o.grid
      ≤ 1 / 2 * 10 ^ o.grid := mul_le_mul_of_nonneg_right hround hstep.le
    _ = 10 ^ o.grid / 2 := by ring

theorem nearest_le (tie : Tie) : o.nearest tie ≤ o.value / o.unit + 1 := by
  rcases roundDiv_eq_or tie o.value o.unit with h | h <;> rw [nearest, h]
  exact Nat.le_succ _

theorem hit?_spec {tie : Tie} {d : ℕ} (h : o.hit? tie = some d) :
    o.readsBack d = true ∧ d ≤ o.value / o.unit + 1 := by
  unfold hit? at h
  dsimp only at h
  split at h
  · next h₁ h₂ =>
    cases h
    refine ⟨?_, o.nearest_le tie⟩
    rcases roundDiv_eq_or tie o.value o.unit with h | h <;> rw [nearest, h]
    · exact h₁
    · exact h₂
  · next h₁ h₂ =>
    cases h
    exact ⟨h₁, Nat.le_succ _⟩
  · next h₁ h₂ =>
    cases h
    exact ⟨h₂, le_rfl⟩
  · cases h

end Overlay

/-- What is found on one of the grids: a number that is rounded back, or the nearest one on the
finest grid. -/
theorem scan_spec {m : ℕ} (hm : 0 < m) (tie : Tie) (e : ℤ) (n : ℕ) (g : ℤ) :
    g - n ≤ (scan tie m e n g).exponent ∧
      ((scan tie m e n g).coefficient : ℚ) ≤ m * 2 ^ e / 10 ^ (scan tie m e n g).exponent + 1 ∧
      (RoundsBack m e (scan tie m e n g).value ∨
        |(scan tie m e n g).value - m * 2 ^ e| ≤ 10 ^ (g - n) / 2) := by
  have hcoefficient (g : ℤ) {d : ℕ}
      (h : d ≤ Overlay.value ⟨m, e, g⟩ / Overlay.unit ⟨m, e, g⟩ + 1) :
      (d : ℚ) ≤ m * 2 ^ e / 10 ^ g + 1 := by
    have h' : (d : ℚ) ≤ (Overlay.value ⟨m, e, g⟩ / Overlay.unit ⟨m, e, g⟩ : ℕ) + 1 := by
      exact_mod_cast h
    have hdiv : ((Overlay.value ⟨m, e, g⟩ / Overlay.unit ⟨m, e, g⟩ : ℕ) : ℚ) ≤ _ := Nat.cast_div_le
    rw [Overlay.value_div_unit] at hdiv
    linarith
  induction n generalizing g with
  | zero =>
    refine ⟨by simp [scan], hcoefficient g (Overlay.nearest_le _ tie), Or.inr ?_⟩
    rw [Nat.cast_zero, sub_zero]
    exact Overlay.abs_nearest_sub_le ⟨m, e, g⟩ tie
  | succ n ih =>
    rw [scan]
    split
    · next d hd =>
      obtain ⟨hreads, hle⟩ := Overlay.hit?_spec _ hd
      refine ⟨by push_cast; omega, hcoefficient g hle, Or.inl ?_⟩
      exact (Overlay.readsBack_iff ⟨m, e, g⟩ hm d).1 hreads
    · have hgrid : g - (n + 1 : ℕ) = g - 1 - n := by omega
      rw [hgrid]
      exact ih (g - 1)

theorem mul_two_pow_div (m : ℕ) (e : ℤ) :
    (((m * Nat.pow 2 e.toNat : ℕ) : ℚ) / (Nat.pow 2 (-e).toNat : ℕ)) = m * 2 ^ e := by
  rw [zpow_eq_div (by norm_num) e]
  simp only [Nat.pow_eq]
  push_cast
  ring

/-- The properties of a float's digits on which reading them relies. Seventeen digits bound both
the coefficient and the exponent. -/
structure Faithful (m : ℕ) (e : ℤ) (d : Digits) : Prop where
  roundsBack : RoundsBack m e d.value
  coefficient_le : d.coefficient ≤ 10 ^ 17
  lt_pow_exponent : (m : ℚ) * 2 ^ e < 10 ^ (d.exponent + 17)

theorem Faithful.coefficient_pos {m : ℕ} {e : ℤ} {d : Digits} (h : Faithful m e d) (hm : 0 < m) :
    0 < d.coefficient := by
  have hpos := h.roundsBack.pos hm
  rw [Digits.value] at hpos
  exact_mod_cast pos_of_mul_pos_left hpos (by positivity)

/-- Seventeen digits of a number lie within the interval of a float. -/
theorem roundsBack_of_abs_sub_le {m : ℕ} {e : ℤ} {v : ℚ} (hm' : m < 2 ^ 53)
    (h : |v - m * 2 ^ e| ≤ m * 2 ^ e / 10 ^ 16 / 2) : RoundsBack m e v := by
  have hstep : (0 : ℚ) < 2 ^ e := by positivity
  have hm'' : (m : ℚ) ≤ 2 ^ 53 := by exact_mod_cast hm'.le
  have hsmall : (m : ℚ) * 2 ^ e ≤ 2 ^ 53 * 2 ^ e := mul_le_mul_of_nonneg_right hm'' hstep.le
  obtain ⟨hl, hu⟩ := abs_le.1 h
  apply roundsBack_of_lt
  · unfold lowerEnd
    split
    · next hpower =>
      have heq : (m : ℚ) = 2 ^ 52 := by exact_mod_cast hpower.1
      rw [heq] at hl ⊢
      norm_num at hl ⊢
      linarith
    · norm_num at hsmall hl ⊢
      linarith
  · rw [upperEnd]
    norm_num at hsmall hu ⊢
    linarith

theorem Faithful.neg_616_le_exponent {m : ℕ} {e : ℤ} {d : Digits} (h : Faithful m e d)
    (hm : 0 < m) (he : -1074 ≤ e) : -616 ≤ d.exponent := by
  by_contra hlt
  have hm1 : (1 : ℚ) ≤ m := by exact_mod_cast hm
  have hfar : (2 : ℚ) ^ 1074 ≤ 10 ^ 600 := by
    have hnat : 2 ^ 1074 ≤ 10 ^ 600 := by decide +kernel
    exact_mod_cast hnat
  have hcycle : (2 : ℚ) ^ e < 2 ^ e := by
    calc (2 : ℚ) ^ e ≤ m * 2 ^ e := le_mul_of_one_le_left (by positivity) hm1
      _ < 10 ^ (d.exponent + 17) := h.lt_pow_exponent
      _ ≤ 10 ^ (-(600 : ℕ) : ℤ) := zpow_le_zpow_right₀ (by norm_num) (by omega)
      _ ≤ 2 ^ (-(1074 : ℕ) : ℤ) := by
        rw [zpow_neg, zpow_neg, zpow_natCast, zpow_natCast]
        exact inv_anti₀ (by positivity) hfar
      _ ≤ 2 ^ e := zpow_le_zpow_right₀ (by norm_num) he
  exact lt_irrefl _ hcycle

/-- On the finest grid the step is so small that the nearest number is rounded back. -/
theorem faithful_shortest (tie : Tie) {m : ℕ} (e : ℤ) (hm : 0 < m) (hm' : m < 2 ^ 53) :
    Faithful m e (shortest tie m e) := by
  have hnum : 0 < m * Nat.pow 2 e.toNat := Nat.mul_pos hm (Nat.pow_pos (by norm_num))
  have hden : 0 < Nat.pow 2 (-e).toNat := Nat.pow_pos (by norm_num)
  have hlead := leadingExponent_spec hnum hden
  rw [mul_two_pow_div] at hlead
  unfold shortest
  rw [if_neg hm.ne']
  dsimp only
  generalize leadingExponent (m * Nat.pow 2 e.toNat) (Nat.pow 2 (-e).toNat) = l at hlead
  obtain ⟨hgrid, hcoefficient, hvalue⟩ := scan_spec hm tie e 17 (l + 1)
  generalize scan tie m e 17 (l + 1) = d at *
  have hgrid' : l + 1 - (17 : ℕ) = l - 16 := by omega
  rw [hgrid'] at hgrid hvalue
  have hsize : (m : ℚ) * 2 ^ e < 10 ^ (d.exponent + 17) :=
    hlead.2.trans_le (zpow_le_zpow_right₀ (by norm_num) (by omega))
  refine ⟨?_, ?_, hsize⟩
  · rcases hvalue with h | h
    · exact h
    · have hstep : (10 : ℚ) ^ (l - 16) ≤ m * 2 ^ e / 10 ^ 16 := by
        rw [zpow_sub₀ (by norm_num)]
        exact div_le_div_of_nonneg_right hlead.1 (by norm_num)
      exact roundsBack_of_abs_sub_le hm' (h.trans (by linarith))
  · have hlt : (m : ℚ) * 2 ^ e / 10 ^ d.exponent < 10 ^ 17 := by
      rw [div_lt_iff₀ (by positivity), ← zpow_natCast, ← zpow_add₀ (by norm_num), add_comm]
      exact hsize
    have hle : (d.coefficient : ℚ) < 10 ^ 17 + 1 := by linarith
    exact Nat.lt_succ_iff.1 (by exact_mod_cast hle)

end TileWorld.Decimal
