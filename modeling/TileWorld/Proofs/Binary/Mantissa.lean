import Mathlib.Order.Compare
import TileWorld.Proofs.Binary.Rounding

/-! Mantissas with two residual bits, as float arithmetic keeps them until it rounds, and the
rationals that they stand for. -/

namespace TileWorld.Binary
open Float.Model Float.Model.UnpackedFloat

/-- What a mantissa and its residual bits tell of a number: its whole part, on which side of the
midpoint it lies, and whether it is one of the two points themselves. -/
structure Tells (em : ExtendedMantissa) (q : ℚ) : Prop where
  lower : (em.mantissa : ℚ) ≤ q
  upper : q < em.mantissa + 1
  roundBit : em.roundBit = true ↔ em.mantissa + 1 / 2 ≤ q
  stickyBit : em.stickyBit = true ↔ q ≠ em.mantissa ∧ q ≠ em.mantissa + 1 / 2

theorem tells_exact (m : ℕ) : Tells (.ofMantissaAndAccuracy m .exact) m where
  lower := le_rfl
  upper := by simp [ExtendedMantissa.ofMantissaAndAccuracy]
  roundBit := by norm_num [ExtendedMantissa.ofMantissaAndAccuracy]
  stickyBit := by simp [ExtendedMantissa.ofMantissaAndAccuracy]

theorem tells_inexact {m : ℕ} {q : ℚ} {o : Ordering} (hl : m < q) (hu : q < m + 1)
    (ho : o.Compares q (m + 1 / 2)) : Tells (.ofMantissaAndAccuracy m (.inexact o)) q := by
  cases o with
  | lt =>
    have hlt : q < m + 1 / 2 := ho
    refine ⟨hl.le, hu, ?_, ?_⟩
    · exact ⟨fun hr => absurd hr Bool.false_ne_true, fun hr => absurd hr (not_le.2 hlt)⟩
    · exact ⟨fun _ => ⟨hl.ne', hlt.ne⟩, fun _ => rfl⟩
  | eq =>
    have heq : q = m + 1 / 2 := ho
    refine ⟨hl.le, hu, ?_, ?_⟩
    · exact ⟨fun _ => heq.ge, fun _ => rfl⟩
    · exact ⟨fun hs => absurd hs Bool.false_ne_true, fun hs => absurd heq hs.2⟩
  | gt =>
    have hgt : m + 1 / 2 < q := ho
    refine ⟨hl.le, hu, ?_, ?_⟩
    · exact ⟨fun _ => hgt.le, fun _ => rfl⟩
    · exact ⟨fun _ => ⟨hl.ne', hgt.ne'⟩, fun _ => rfl⟩

namespace Tells

variable {em : ExtendedMantissa} {q : ℚ} (h : Tells em q)
include h

theorem floor_eq : ⌊q⌋ = (em.mantissa : ℤ) := by
  rw [Int.floor_eq_iff]
  exact ⟨by exact_mod_cast h.lower, by exact_mod_cast h.upper⟩

theorem roundedMantissa_eq : (em.roundedMantissa : ℤ) = roundEven q := by
  have hfloor := h.floor_eq
  obtain ⟨m, r, s⟩ := em
  obtain ⟨hl, hu, hr, hs⟩ := h
  dsimp only at *
  rw [roundEven, hfloor, Int.cast_natCast]
  by_cases hlt : q < m + 1 / 2
  · have : r = false := by
      rw [Bool.eq_false_iff, Ne, hr]
      linarith
    subst this
    rw [if_pos hlt]
    cases s <;> rfl
  · have : r = true := hr.2 (by linarith)
    subst this
    rw [if_neg hlt]
    by_cases heq : q = m + 1 / 2
    · have : s = false := by
        rw [Bool.eq_false_iff, Ne, hs]
        exact fun hne => hne.2 heq
      subst this
      rw [if_pos heq]
      rfl
    · have : s = true := by
        refine hs.2 ⟨?_, heq⟩
        intro hm
        linarith
      subst this
      rw [if_neg heq]
      rfl

theorem shiftRightOne : Tells em.shiftRightOne (q / 2) := by
  obtain ⟨m, r, s⟩ := em
  obtain ⟨hl, hu, hr, hs⟩ := h
  dsimp only at *
  have hm : (m : ℚ) = (m % 2 : ℕ) + 2 * (m / 2 : ℕ) := by exact_mod_cast (Nat.mod_add_div m 2).symm
  have hsticky : (r || s) = true ↔ q ≠ m := by
    rw [Bool.or_eq_true, hr, hs]
    constructor
    · rintro (hge | ⟨hne, _⟩)
      · intro hm
        linarith
      · exact hne
    · intro hne
      by_cases heq : q = m + 1 / 2
      · exact Or.inl heq.ge
      · exact Or.inr ⟨hne, heq⟩
  -- the last digit becomes the round bit, so an odd mantissa is at or past the new midpoint
  rcases Nat.mod_two_eq_zero_or_one m with h0 | h1
  · rw [h0, Nat.cast_zero, zero_add] at hm
    refine ⟨?_, ?_, ?_, hsticky.trans ?_⟩ <;> dsimp only [ExtendedMantissa.shiftRightOne]
    · linarith
    · linarith
    · rw [h0]
      exact ⟨fun hf => absurd hf (by decide), fun hge => by linarith⟩
    · constructor
      · intro hne
        exact ⟨fun heq => hne (by linarith), fun heq => by linarith⟩
      · rintro ⟨hne, _⟩ heq
        exact hne (by linarith)
  · rw [h1, Nat.cast_one] at hm
    refine ⟨?_, ?_, ?_, hsticky.trans ?_⟩ <;> dsimp only [ExtendedMantissa.shiftRightOne]
    · linarith
    · linarith
    · rw [h1]
      exact ⟨fun _ => by linarith, fun _ => rfl⟩
    · constructor
      · intro hne
        exact ⟨fun heq => by linarith, fun heq => hne (by linarith)⟩
      · rintro ⟨_, hne⟩ heq
        exact hne (by linarith)

theorem shiftRight (n : ℕ) : Tells (em >>> n) (q / 2 ^ n) := by
  -- the shift is the one-place shift repeated, and each place keeps what the bits tell
  change Tells (n.repeat ExtendedMantissa.shiftRightOne em) _
  induction n with
  | zero => simpa [Nat.repeat] using h
  | succ n ih =>
    rw [pow_succ, ← div_div]
    exact ih.shiftRightOne

end Tells

/-- The residual bits of a division tell the exact quotient. -/
theorem tells_fraction (a d : ℕ) (hd : 0 < d) :
    Tells (.ofMantissaAndAccuracy (a / d) (accuracyOfFraction (a % d) d)) (a / d : ℚ) := by
  have hd' : (0 : ℚ) < d := by exact_mod_cast hd
  have hmod : ((a % d : ℕ) : ℚ) < d := by exact_mod_cast Nat.mod_lt a hd
  have hquot : (a / d : ℚ) = (a / d : ℕ) + ((a % d : ℕ) : ℚ) / d := by
    have hdiv : (a : ℚ) = (a % d : ℕ) + d * (a / d : ℕ) := by
      exact_mod_cast (Nat.mod_add_div a d).symm
    rw [eq_comm, ← eq_sub_iff_add_eq', div_eq_iff hd'.ne', sub_mul, div_mul_cancel₀ _ hd'.ne']
    linarith
  rw [hquot]
  generalize a / d = k
  generalize a % d = f at hmod
  by_cases hf : f = 0
  · subst hf
    rw [accuracyOfFraction, if_pos rfl, Nat.cast_zero, zero_div, add_zero]
    exact tells_exact k
  have hpos : 0 < (f : ℚ) / d := by positivity
  have hlt : (f : ℚ) / d < 1 := (div_lt_one hd').2 hmod
  have hlower : (k : ℚ) < k + f / d := by linarith
  have hupper : (k : ℚ) + f / d < k + 1 := by linarith
  rw [accuracyOfFraction, if_neg hf]
  -- twice the remainder is compared with the divisor, which compares the fraction with a half
  rcases lt_trichotomy (2 * f) d with h | h | h
  · have hhalf : (f : ℚ) / d < 1 / 2 := by
      rw [div_lt_div_iff₀ hd' (by norm_num)]
      exact_mod_cast (by omega : f * 2 < 1 * d)
    rw [Nat.compare_eq_lt.2 h]
    exact tells_inexact hlower hupper (add_lt_add_right hhalf _)
  · have hhalf : (f : ℚ) / d = 1 / 2 := by
      rw [div_eq_div_iff hd'.ne' (by norm_num)]
      exact_mod_cast (by omega : f * 2 = 1 * d)
    rw [Nat.compare_eq_eq.2 h]
    exact tells_inexact hlower hupper (congrArg ((k : ℚ) + ·) hhalf)
  · have hhalf : 1 / 2 < (f : ℚ) / d := by
      rw [div_lt_div_iff₀ (by norm_num) hd']
      exact_mod_cast (by omega : 1 * d < f * 2)
    rw [Nat.compare_eq_gt.2 h]
    exact tells_inexact hlower hupper (add_lt_add_right hhalf _)

end TileWorld.Binary
