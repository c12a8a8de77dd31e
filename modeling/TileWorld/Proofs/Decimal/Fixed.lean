import TileWorld.Proofs.Binary.Special
import TileWorld.Proofs.Json.Literal

/-! Text with a fixed number of places behind the point. It spells a number of one form only, which
is the multiple of the last place that is nearest to the float. -/

namespace TileWorld.Decimal
open Binary Json

/-- The digits of `n`, the last ones of them behind the point. -/
def fixedLiteral (places : ℕ) (negative : Bool) (n : ℕ) : Literal where
  negative := negative
  whole := digits (n / 10 ^ places)
  fraction := zeros (places - (digits (n % 10 ^ places)).length) ++ digits (n % 10 ^ places)
  exponent := none
  proper := by
    refine ⟨fun c hc => isDigit_of_mem_digits hc, fun c hc => ?_, Nat.toDigits_ne_nil,
      length_digits_of_head?⟩
    rcases List.mem_append.1 hc with h | h
    · exact isDigit_of_mem_zeros h
    · exact isDigit_of_mem_digits h

section
variable {places : ℕ} (hp : 0 < places) (negative : Bool) (n : ℕ)
include hp

theorem length_fraction_fixedLiteral :
    (fixedLiteral places negative n).fraction.length = places := by
  have hfits : (digits (n % 10 ^ places)).length ≤ places :=
    (Nat.length_toDigits_le_iff (by decide) hp).2 (Nat.mod_lt n (by positivity))
  rw [fixedLiteral, List.length_append, zeros, List.length_replicate]
  omega

theorem significand_fixedLiteral : (fixedLiteral places negative n).numeral.significand = n := by
  have hlength := length_fraction_fixedLiteral hp negative n
  rw [Numeral.significand, Nat.ofDigitChars_append, Nat.ofDigitChars_eq_ofDigitChars_zero]
  change 10 ^ (fixedLiteral places negative n).fraction.length *
    Nat.ofDigitChars 10 (digits (n / 10 ^ places)) 0 +
      Nat.ofDigitChars 10 (zeros _ ++ digits (n % 10 ^ places)) 0 = n
  rw [hlength, Nat.ofDigitChars_append, zeros, Nat.ofDigitChars_replicate_zero, Nat.mul_zero,
    digits, digits, Nat.ofDigitChars_ten_toDigits, Nat.ofDigitChars_ten_toDigits]
  exact Nat.div_add_mod n _

theorem size_fixedLiteral : (fixedLiteral places negative n).size = n * (1 / 10 ^ places) := by
  have hexponent : (fixedLiteral places negative n).numeral.lastExponent = -(places : ℤ) := by
    have hlength := length_fraction_fixedLiteral hp negative n
    change 0 - (((fixedLiteral places negative n).fraction.length : ℕ) : ℤ) = _
    omega
  rw [Literal.size, significand_fixedLiteral hp, hexponent, zpow_neg, zpow_natCast, one_div]

theorem chars_fixedLiteral : (fixedLiteral places negative n).chars =
    signed negative ((fixedLiteral places negative n).whole ++
      '.' :: (fixedLiteral places negative n).fraction) := by
  have hlength := length_fraction_fixedLiteral hp negative n
  have hne : (fixedLiteral places negative n).fraction.isEmpty = false := by
    rw [List.isEmpty_eq_false_iff]
    exact List.ne_nil_of_length_pos (hlength.symm ▸ hp)
  rw [Literal.chars, Numeral.fractionChars, hne]
  change signed negative (_ ++ ('.' :: _ ++ [])) = _
  rw [List.append_nil]

end

/-- The whole number that is written for `m * 2 ^ e`, with the point taken out. -/
def fixedCoefficient (places m : ℕ) (e : ℤ) : ℕ :=
  roundDiv .toEven (m * Nat.pow 2 e.toNat * Nat.pow 10 places) (Nat.pow 2 (-e).toNat)

theorem nearestMultiple_fixedCoefficient (places m : ℕ) (e : ℤ) :
    NearestMultiple (1 / 10 ^ places) (m * 2 ^ e) (fixedCoefficient places m e) := by
  have hden : 0 < Nat.pow 2 (-e).toNat := Nat.pow_pos (by norm_num)
  have hquot : ((m * Nat.pow 2 e.toNat * Nat.pow 10 places : ℕ) : ℚ) / (Nat.pow 2 (-e).toNat : ℕ) =
      m * 2 ^ e / (1 / 10 ^ places) := by
    rw [Nat.cast_mul, mul_div_right_comm, mul_two_pow_div, div_div_eq_mul_div, div_one,
      Nat.pow_eq, Nat.cast_pow, Nat.cast_ofNat]
  apply NearestMultiple.scale (by positivity)
  rw [fixedCoefficient, roundDiv_toEven _ hden, hquot]
  exact nearestMultiple_roundEven _

/-- A number with its sign bit as its sign, and with a fixed number of places, that is the nearest
one of this form to the exact value of a float. -/
structure Rounded (places : ℕ) (x : Float) (l : Literal) : Prop where
  negative : l.negative = signBit x
  length_fraction : l.fraction.length = places
  exponent : l.exponent = none
  nearest : ∃ (q : ℚ) (n : ℤ), value? x = some q ∧ l.value = n * (1 / 10 ^ places) ∧
    NearestMultiple (1 / 10 ^ places) q n

theorem rounded_fixedLiteral {places : ℕ} (hp : 0 < places) {x : Float} {m : ℕ} {e : ℤ}
    (hexact : exact x = .finite (signBit x) m e) :
    Rounded places x (fixedLiteral places (signBit x) (fixedCoefficient places m e)) where
  negative := rfl
  length_fraction := length_fraction_fixedLiteral hp _ _
  exponent := rfl
  nearest := by
    have hnearest := nearestMultiple_fixedCoefficient places m e
    have hsize (negative : Bool) :=
      size_fixedLiteral hp negative (fixedCoefficient places m e)
    rw [Literal.value, value?, hexact]
    change ∃ (q : ℚ) (n : ℤ), _ ∧ (if signBit x then _ else _) = _ ∧ _
    cases signBit x with
    | false => exact ⟨_, fixedCoefficient places m e, rfl, hsize false, hnearest⟩
    | true =>
      refine ⟨_, -(fixedCoefficient places m e : ℤ), rfl, ?_, hnearest.neg⟩
      rw [if_pos rfl, hsize, Int.cast_neg, Int.cast_natCast, neg_mul]

theorem fixedChars_eq {places : ℕ} (hp : 0 < places) {x : Float} {m : ℕ} {e : ℤ}
    (hexact : exact x = .finite (signBit x) m e) : fixedChars places x =
      (fixedLiteral places (signBit x) (fixedCoefficient places m e)).chars := by
  rw [chars_fixedLiteral hp, fixedChars, hexact]
  rfl

/-- Larger numbers are not written as smaller ones. -/
theorem Rounded.value_mono {places : ℕ} {x y : Float} {l l' : Literal} (h : Rounded places x l)
    (h' : Rounded places y l') (hle : x ≤ y) : l.value ≤ l'.value := by
  obtain ⟨q, n, hq, hvalue, hn⟩ := h.nearest
  obtain ⟨q', n', hq', hvalue', hn'⟩ := h'.nearest
  have hmono := hn.mono (by positivity) hn' ((le_iff hq hq').1 hle)
  rw [hvalue, hvalue']
  exact mul_le_mul_of_nonneg_right (by exact_mod_cast hmono) (by positivity)

end TileWorld.Decimal
