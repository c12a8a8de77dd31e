import Mathlib.Data.Nat.Basic
import Mathlib.Tactic.Common
import TileWorld.Json.Number

/-! Numerals read back from the characters that they are written in. Digits that are laid out in
any of the forms of JSON give a numeral with these digits as its significand. -/

namespace TileWorld.Json
open Decimal (Digits digits zeros)

/-- The rest of a text that is not part of a number before it. -/
def EndsNumber (cs : List Char) : Prop :=
  ∀ c ∈ cs.head?, c.isDigit = false ∧ c ≠ '.' ∧ c ≠ 'e' ∧ c ≠ 'E'

theorem endsNumber_cons {c : Char} (cs : List Char)
    (h : c.isDigit = false ∧ c ≠ '.' ∧ c ≠ 'e' ∧ c ≠ 'E') : EndsNumber (c :: cs) := by
  intro c' hc'
  cases hc'
  exact h

theorem isDigit_of_mem_digits {n : Nat} {c : Char} (h : c ∈ digits n) : c.isDigit = true :=
  Nat.isDigit_of_mem_toDigits (by decide) (by decide) h

theorem isDigit_of_mem_zeros {n : Nat} {c : Char} (h : c ∈ zeros n) : c.isDigit = true := by
  rw [List.eq_of_mem_replicate h]
  rfl

theorem head?_digits_append (n : Nat) (cs : List Char) :
    (digits n ++ cs).head? = (digits n).head? := by
  obtain ⟨c, ds, h⟩ := List.exists_cons_of_ne_nil (show digits n ≠ [] from Nat.toDigits_ne_nil)
  rw [h]
  rfl

/-- Only zero has a zero as its first digit. -/
theorem head?_digits_ne {n : Nat} (hn : 0 < n) : (digits n).head? ≠ some '0' := by
  induction n using Nat.strongRecOn with
  | ind n ih =>
    by_cases hlt : n < 10
    · have hdigit : ∀ n < 10, 0 < n → [n.digitChar].head? ≠ some '0' := by decide
      rw [digits, Nat.toDigits_of_lt_base hlt]
      exact hdigit n hlt hn
    · have hhead := ih (n / 10) (by omega) (by omega)
      rw [digits, Nat.toDigits_of_base_le (by decide) (by omega)]
      change (digits (n / 10) ++ _).head? ≠ _
      rw [head?_digits_append]
      exact hhead

theorem length_digits_of_head? {n : Nat} (h : (digits n).head? = some '0') :
    (digits n).length = 1 := by
  rcases Nat.eq_zero_or_pos n with rfl | hpos
  · rfl
  · exact absurd h (head?_digits_ne hpos)

section
variable {ds rest : List Char} (hds : ∀ c ∈ ds, c.isDigit = true)
  (hrest : ∀ c ∈ rest.head?, c.isDigit = false)
include hds hrest

theorem takeWhile_digits : (ds ++ rest).takeWhile Char.isDigit = ds := by
  rw [List.takeWhile_append_of_pos hds]
  cases rest with
  | nil => simp
  | cons c cs => simp [hrest c rfl]

theorem dropWhile_digits : (ds ++ rest).dropWhile Char.isDigit = rest := by
  rw [List.dropWhile_append_of_pos hds]
  cases rest with
  | nil => rfl
  | cons c cs => simp [hrest c rfl]

end

namespace Numeral

def fractionChars (ds : List Char) : List Char :=
  if ds.isEmpty then [] else '.' :: ds

def exponentChars : Option Int → List Char
  | none => []
  | some e => 'e' :: (if e < 0 then '-' else '+') :: digits e.natAbs

/-- The characters behind the sign. -/
def chars (n : Numeral) : List Char :=
  n.whole ++ (fractionChars n.fraction ++ exponentChars n.exponent)

/-- Digits where digits belong, with no leading zero that is not alone. -/
structure Proper (n : Numeral) : Prop where
  whole_digits : ∀ c ∈ n.whole, c.isDigit = true
  fraction_digits : ∀ c ∈ n.fraction, c.isDigit = true
  whole_ne_nil : n.whole ≠ []
  leading : n.whole.head? = some '0' → n.whole.length = 1

end Numeral

theorem proper_digits (negative : Bool) (n : Nat) :
    Numeral.Proper ⟨negative, digits n, [], none⟩ :=
  ⟨fun _ hc => isDigit_of_mem_digits hc, nofun, Nat.toDigits_ne_nil, length_digits_of_head?⟩

theorem endsNumber_exponentChars (e : Option Int) {rest : List Char} (hrest : EndsNumber rest) :
    ∀ c ∈ (Numeral.exponentChars e ++ rest).head?, c.isDigit = false ∧ c ≠ '.' := by
  intro c hc
  cases e with
  | none => exact ⟨(hrest c hc).1, (hrest c hc).2.1⟩
  | some e =>
    cases hc
    decide

theorem readExponent?_of_endsNumber {rest : List Char} (hrest : EndsNumber rest) :
    readExponent? rest = .ok (none, rest) := by
  unfold readExponent?
  split
  · exact absurd rfl (hrest _ rfl).2.2.1
  · exact absurd rfl (hrest _ rfl).2.2.2
  · rfl

theorem digits_append_ne {ds : List Char} (hds : ∀ c ∈ ds, c.isDigit = true) (hne : ds ≠ [])
    (rest : List Char) {c : Char} (hc : c.isDigit = false) (cs : List Char) :
    ds ++ rest ≠ c :: cs := by
  obtain ⟨d, ds, rfl⟩ := List.exists_cons_of_ne_nil hne
  intro h
  rw [← (List.cons.inj h).1, hds d List.mem_cons_self] at hc
  cases hc

/-- The sign of an exponent, if there is one: it is true for a minus sign. -/
def signChars : Option Bool → List Char
  | none => []
  | some negative => [if negative then '-' else '+']

theorem readExponent_signChars {ds rest : List Char} (hds : ∀ c ∈ ds, c.isDigit = true)
    (hne : ds ≠ []) (hrest : EndsNumber rest) (sign : Option Bool) :
    readExponent (signChars sign ++ (ds ++ rest)) =
      .ok (if sign.getD false then -(Nat.ofDigitChars 10 ds 0 : Int)
        else Nat.ofDigitChars 10 ds 0, rest) := by
  have htake := takeWhile_digits hds fun c hc => (hrest c hc).1
  have hdrop := dropWhile_digits hds fun c hc => (hrest c hc).1
  have hempty : ds.isEmpty = false := List.isEmpty_eq_false_iff.2 hne
  rcases sign with _ | _ | _
  · rw [signChars, List.nil_append, readExponent, htake, hdrop, hempty]
    · rfl
    · exact digits_append_ne hds hne rest (by decide)
    · exact digits_append_ne hds hne rest (by decide)
  · change readExponent ('+' :: (ds ++ rest)) = _
    rw [readExponent, htake, hdrop, hempty]
    rfl
  · change readExponent ('-' :: (ds ++ rest)) = _
    rw [readExponent, htake, hdrop, hempty]
    rfl

theorem readExponent?_exponentChars (e : Option Int) {rest : List Char} (hrest : EndsNumber rest) :
    readExponent? (Numeral.exponentChars e ++ rest) = .ok (e, rest) := by
  cases e with
  | none => exact readExponent?_of_endsNumber hrest
  | some e =>
    have hread := readExponent_signChars (fun c hc => isDigit_of_mem_digits hc)
      (show digits e.natAbs ≠ [] from Nat.toDigits_ne_nil) hrest (some (decide (e < 0)))
    have hvalue : (if decide (e < 0) = true then
        -(Nat.ofDigitChars 10 (digits e.natAbs) 0 : Int)
        else Nat.ofDigitChars 10 (digits e.natAbs) 0) = e := by
      rw [digits, Nat.ofDigitChars_ten_toDigits]
      split
      · next he =>
        have := of_decide_eq_true he
        omega
      · next he =>
        have := of_decide_eq_false (Bool.eq_false_iff.2 he)
        omega
    have hchars : Numeral.exponentChars (some e) ++ rest =
        'e' :: (signChars (some (decide (e < 0))) ++ (digits e.natAbs ++ rest)) := by
      by_cases he : e < 0 <;> simp [Numeral.exponentChars, signChars, he]
    rw [Option.getD_some, hvalue] at hread
    rw [hchars]
    change (readExponent _).map _ = _
    rw [hread]
    rfl

theorem head?_fractionChars (ds : List Char) {cs : List Char}
    (hcs : ∀ c ∈ cs.head?, c.isDigit = false ∧ c ≠ '.') :
    ∀ c ∈ (Numeral.fractionChars ds ++ cs).head?, c.isDigit = false := by
  intro c hc
  rw [Numeral.fractionChars] at hc
  split at hc
  · exact (hcs c hc).1
  · cases hc
    rfl

theorem readFraction?_fractionChars {ds rest : List Char} (hds : ∀ c ∈ ds, c.isDigit = true)
    (hrest : ∀ c ∈ rest.head?, c.isDigit = false ∧ c ≠ '.') :
    readFraction? (Numeral.fractionChars ds ++ rest) = .ok (ds, rest) := by
  cases hempty : ds.isEmpty with
  | true =>
    rw [List.isEmpty_iff] at hempty
    subst hempty
    unfold readFraction?
    split
    · next heq =>
      rw [Numeral.fractionChars] at heq
      have hhead : rest.head? = some '.' := congrArg List.head? heq
      exact absurd rfl (hrest '.' hhead).2
    · rfl
  | false =>
    have htake := takeWhile_digits hds fun c hc => (hrest c hc).1
    have hdrop := dropWhile_digits hds fun c hc => (hrest c hc).1
    simp [Numeral.fractionChars, readFraction?, hempty, htake, hdrop]

/-- A numeral reads back from its digits, however its exponent is written. -/
theorem readNumeral_digits {n : Numeral} (hn : n.Proper) {cs rest : List Char}
    (hcs : ∀ c ∈ cs.head?, c.isDigit = false ∧ c ≠ '.')
    (hread : readExponent? cs = .ok (n.exponent, rest)) :
    readNumeral n.negative (n.whole ++ (Numeral.fractionChars n.fraction ++ cs)) =
      .ok (n, rest) := by
  have hfraction := head?_fractionChars n.fraction hcs
  have htake := takeWhile_digits hn.whole_digits hfraction
  have hdrop := dropWhile_digits hn.whole_digits hfraction
  rw [readNumeral, htake, hdrop]
  dsimp only
  split
  · next h => exact absurd h hn.whole_ne_nil
  · next h =>
    have := hn.leading (by rw [h]; rfl)
    rw [h] at this
    simp at this
  · rw [readFraction?_fractionChars hn.fraction_digits hcs]
    simp only [bind, Except.bind, hread]
    rfl

theorem readNumeral_chars {n : Numeral} (hn : n.Proper) {rest : List Char}
    (hrest : EndsNumber rest) : readNumeral n.negative (n.chars ++ rest) = .ok (n, rest) := by
  rw [Numeral.chars, List.append_assoc, List.append_assoc]
  exact readNumeral_digits hn (endsNumber_exponentChars n.exponent hrest)
    (readExponent?_exponentChars n.exponent hrest)

theorem le_ofDigitChars (cs : List Char) (s : Nat) : s ≤ Nat.ofDigitChars 10 cs s := by
  rw [Nat.ofDigitChars_eq_ofDigitChars_zero]
  exact Nat.le_add_right_of_le (Nat.le_mul_of_pos_left s (Nat.pow_pos (by decide)))

theorem absorb_eq {s : Nat} {cs : List Char} (h : Nat.ofDigitChars 10 cs s < UInt64.size) :
    absorb s cs = (Nat.ofDigitChars 10 cs s, []) := by
  induction cs generalizing s with
  | nil => rfl
  | cons c cs ih =>
    have hcons : Nat.ofDigitChars 10 (c :: cs) s =
        Nat.ofDigitChars 10 cs (Nat.ofDigitChars 10 [c] s) := by
      rw [← Nat.ofDigitChars_append, List.singleton_append]
    rw [hcons] at h ⊢
    rw [absorb, if_pos (Nat.lt_of_le_of_lt (le_ofDigitChars cs _) h)]
    exact ih h

namespace Numeral

/-- The number that all digits form together. -/
def significand (n : Numeral) : Nat := Nat.ofDigitChars 10 (n.whole ++ n.fraction) 0

/-- The power of ten that belongs to the last digit. -/
def lastExponent (n : Numeral) : Int := n.exponent.getD 0 - n.fraction.length

/-- A float is negated behind a minus sign. -/
def withSign (negative : Bool) (x : Float) : Float := if negative then -x else x

theorem real?_eq {n : Numeral} (h : n.significand < UInt64.size) :
    n.real? = (scale? n.significand.toUInt64.toFloat n.lastExponent).map (withSign n.negative) := by
  rw [significand, Nat.ofDigitChars_append] at h
  have hwhole : Nat.ofDigitChars 10 n.whole 0 < UInt64.size :=
    Nat.lt_of_le_of_lt (le_ofDigitChars n.fraction _) h
  have hexponent : ((0 : Nat) : Int) - (n.fraction.length - (0 : Nat)) + n.exponent.getD 0 =
      n.lastExponent := by
    rw [lastExponent]
    omega
  rw [real?, absorb_eq hwhole]
  simp only [absorb_eq h, List.length_nil, hexponent, significand, Nat.ofDigitChars_append]
  rfl

end Numeral

end TileWorld.Json
