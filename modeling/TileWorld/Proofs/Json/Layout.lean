import Mathlib.Tactic.Ring
import TileWorld.Proofs.Json.Numeral

/-! The shortest digits of a float, as the numeral that they are laid out in. -/

namespace TileWorld.Json
open Decimal (Digits digits zeros signed)

/-- The exponent of the first of the digits. -/
def firstExponent (d : Digits) : Int := d.exponent + ((digits d.coefficient).length - 1 : Nat)

/-- The digits with zeros before them, so that one of them stands before the point. -/
def padded (d : Digits) : List Char :=
  zeros ((-d.exponent).toNat + 1 - (digits d.coefficient).length) ++ digits d.coefficient

def layOut (negative : Bool) (d : Digits) : Numeral :=
  if numbers.positional (firstExponent d) then
    if 0 ≤ d.exponent then ⟨negative, digits d.coefficient ++ zeros d.exponent.toNat, ['0'], none⟩
    else
      let point := (padded d).length - (-d.exponent).toNat
      ⟨negative, (padded d).take point, (padded d).drop point, none⟩
  else
    ⟨negative, (digits d.coefficient).take 1, (digits d.coefficient).drop 1,
      some (firstExponent d)⟩

/-- The digits of the text for `d` as they are read: the zeros that fill up a whole number, and the
one behind its point, are digits like the others. -/
def written (d : Digits) : Digits :=
  if numbers.positional (firstExponent d) && 0 ≤ d.exponent then
    ⟨d.coefficient * 10 ^ (d.exponent.toNat + 1), -1⟩
  else d

theorem layOut_negative (negative : Bool) (d : Digits) :
    (layOut negative d).negative = negative := by
  unfold layOut
  dsimp only
  split_ifs <;> rfl

theorem length_padded (d : Digits) : (-d.exponent).toNat < (padded d).length := by
  rw [padded, List.length_append, zeros, List.length_replicate]
  omega

section
variable (negative : Bool) (d : Digits)

theorem fraction_layOut_ne (hexponent : (layOut negative d).exponent = none) :
    (layOut negative d).fraction ≠ [] := by
  unfold layOut at hexponent ⊢
  dsimp only at hexponent ⊢
  split_ifs at hexponent ⊢ with hpositional hwhole
  · simp
  · have := length_padded d
    rw [ne_eq, List.drop_eq_nil_iff]
    omega

theorem magnitude_eq_chars : numbers.magnitude d = (layOut negative d).chars := by
  unfold layOut Decimal.Layout.magnitude
  change (if numbers.positional (firstExponent d) = true then _ else _) = _
  split
  · unfold Decimal.Layout.inPlaces
    dsimp only
    split
    · change _ = _ ++ (_ ++ [])
      rw [List.append_nil]
      rfl
    · have hlength := length_padded d
      have hne : ((padded d).drop ((padded d).length - (-d.exponent).toNat)).isEmpty = false := by
        rw [List.isEmpty_eq_false_iff, ne_eq, List.drop_eq_nil_iff]
        omega
      change _ ++ '.' :: _ = _ ++ (Numeral.fractionChars _ ++ [])
      rw [Numeral.fractionChars, hne, List.append_nil]
      rfl
  · have hdrop : (digits d.coefficient).length = 1 ↔
        ((digits d.coefficient).drop 1).isEmpty = true := by
      have hlength : 0 < (digits d.coefficient).length := Nat.length_toDigits_pos
      rw [List.isEmpty_iff, List.drop_eq_nil_iff]
      omega
    unfold Decimal.Layout.withExponent Numeral.chars Numeral.fractionChars
    dsimp only
    simp only [hdrop]
    rw [List.append_assoc]
    rfl

theorem isDigit_of_mem_padded {c : Char} (h : c ∈ padded d) : c.isDigit = true := by
  rcases List.mem_append.1 h with h | h
  · exact isDigit_of_mem_zeros h
  · exact isDigit_of_mem_digits h

theorem layOut_proper (hd : 0 < d.coefficient ∨ d.exponent = 0) : (layOut negative d).Proper := by
  have hlength : 0 < (digits d.coefficient).length := Nat.length_toDigits_pos
  unfold layOut
  dsimp only
  split_ifs with hpositional hwhole
  · refine ⟨?_, by simp, by simp [List.ne_nil_of_length_pos hlength], ?_⟩
    · intro c hc
      rcases List.mem_append.1 hc with h | h
      · exact isDigit_of_mem_digits h
      · exact isDigit_of_mem_zeros h
    · intro hhead
      rw [head?_digits_append] at hhead
      rcases Nat.eq_zero_or_pos d.coefficient with hzero | hpos
      · rw [hd.resolve_left (by omega), hzero]
        rfl
      · exact absurd hhead (head?_digits_ne hpos)
  · have hpoint := length_padded d
    refine ⟨fun c hc => isDigit_of_mem_padded d (List.mem_of_mem_take hc),
      fun c hc => isDigit_of_mem_padded d (List.mem_of_mem_drop hc), ?_, ?_⟩
    · apply List.ne_nil_of_length_pos
      rw [List.length_take]
      omega
    · intro hhead
      rw [List.head?_take, if_neg (by omega)] at hhead
      -- a zero in front has been put there to fill the place before the point
      by_cases hfill : (-d.exponent).toNat + 1 ≤ (digits d.coefficient).length
      · rw [padded, Nat.sub_eq_zero_of_le hfill] at hhead
        exact absurd hhead (head?_digits_ne (hd.resolve_right (by omega)))
      · rw [List.length_take, padded, List.length_append, zeros, List.length_replicate]
        omega
  · refine ⟨fun c hc => isDigit_of_mem_digits (List.mem_of_mem_take hc),
      fun c hc => isDigit_of_mem_digits (List.mem_of_mem_drop hc), ?_, ?_⟩
    · apply List.ne_nil_of_length_pos
      rw [List.length_take]
      omega
    · intro _
      rw [List.length_take]
      omega

theorem significand_layOut : (layOut negative d).significand = (written d).coefficient := by
  have hdigits : Nat.ofDigitChars 10 (digits d.coefficient) 0 = d.coefficient :=
    Nat.ofDigitChars_ten_toDigits
  have hpadded : Nat.ofDigitChars 10 (padded d) 0 = d.coefficient := by
    rw [padded, Nat.ofDigitChars_append, zeros, Nat.ofDigitChars_replicate_zero, Nat.mul_zero,
      hdigits]
  unfold layOut written Numeral.significand
  dsimp only
  by_cases hpositional : numbers.positional (firstExponent d) = true
  · by_cases hwhole : 0 ≤ d.exponent
    · rw [if_pos hpositional, if_pos hwhole, if_pos (by simp [hpositional, hwhole]),
        Nat.ofDigitChars_append, Nat.ofDigitChars_append, hdigits, zeros,
        Nat.ofDigitChars_replicate_zero, pow_succ]
      change 10 * _ + 0 = _
      ring
    · rw [if_pos hpositional, if_neg hwhole, if_neg (by simp [hwhole])]
      dsimp only
      rw [List.take_append_drop]
      exact hpadded
  · rw [if_neg hpositional, if_neg (by simp [hpositional])]
    dsimp only
    rw [List.take_append_drop]
    exact hdigits

theorem lastExponent_layOut : (layOut negative d).lastExponent = (written d).exponent := by
  have hlength : 0 < (digits d.coefficient).length := Nat.length_toDigits_pos
  have hpoint := length_padded d
  unfold layOut written Numeral.lastExponent
  dsimp only
  by_cases hpositional : numbers.positional (firstExponent d) = true
  · by_cases hwhole : 0 ≤ d.exponent
    · rw [if_pos hpositional, if_pos hwhole, if_pos (by simp [hpositional, hwhole])]
      rfl
    · rw [if_pos hpositional, if_neg hwhole, if_neg (by simp [hwhole])]
      dsimp only [Option.getD_none]
      rw [List.length_drop]
      omega
  · rw [if_neg hpositional, if_neg (by simp [hpositional])]
    dsimp only [Option.getD_some]
    rw [List.length_drop, firstExponent]
    omega

/-- The digits that a whole number is filled up to are seventeen at most. -/
theorem coefficient_written_le (hd : d.coefficient ≤ 10 ^ 17) :
    (written d).coefficient ≤ 10 ^ 17 := by
  unfold written
  split
  · next h =>
    rw [Bool.and_eq_true, decide_eq_true_eq] at h
    have hfirst : firstExponent d ≤ 15 := by
      have hpositional := h.1
      change (decide (-5 ≤ firstExponent d) && decide (firstExponent d ≤ 15)) = true at hpositional
      rw [Bool.and_eq_true, decide_eq_true_eq, decide_eq_true_eq] at hpositional
      exact hpositional.2
    have hlength : 0 < (digits d.coefficient).length := Nat.length_toDigits_pos
    have hlt : d.coefficient < 10 ^ (digits d.coefficient).length :=
      (Nat.length_toDigits_le_iff (by decide) hlength).1 le_rfl
    rw [firstExponent] at hfirst
    calc d.coefficient * 10 ^ (d.exponent.toNat + 1)
        ≤ 10 ^ (digits d.coefficient).length * 10 ^ (d.exponent.toNat + 1) :=
          Nat.mul_le_mul_right _ (Nat.le_of_lt hlt)
      _ = 10 ^ ((digits d.coefficient).length + (d.exponent.toNat + 1)) := (pow_add _ _ _).symm
      _ ≤ 10 ^ 17 := Nat.pow_le_pow_right (by decide) (by omega)
  · exact hd

end

end TileWorld.Json
