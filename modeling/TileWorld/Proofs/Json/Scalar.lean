import TileWorld.Json.Structure
import TileWorld.Json.Value
import TileWorld.Proofs.Json.Reread
import TileWorld.Proofs.Json.Token

/-! Counts and floats read back from their texts, behind any blanks. -/

namespace TileWorld.Json
open Binary (isFinite_iff value?)
open Decimal (digits exact shortest signed)

theorem isBlank_of_isDigit {c : Char} (h : c.isDigit = true) : isBlank c = false := by
  cases hblank : isBlank c with
  | false => rfl
  | true =>
    simp only [isBlank, Bool.or_eq_true, decide_eq_true_eq] at hblank
    rcases hblank with ((rfl | rfl) | rfl) | rfl <;> exact absurd h (by decide)

theorem endsNumber_blanks {blanks rest : List Char} (hblanks : ∀ b ∈ blanks, isBlank b = true)
    (hrest : EndsNumber rest) : EndsNumber (blanks ++ rest) := by
  cases blanks with
  | nil => exact hrest
  | cons b bs =>
    apply endsNumber_cons
    have hblank := hblanks b List.mem_cons_self
    simp only [isBlank, Bool.or_eq_true, decide_eq_true_eq] at hblank
    rcases hblank with ((rfl | rfl) | rfl) | rfl <;> decide

theorem readColon_blanks {blanks : List Char} (hblanks : ∀ b ∈ blanks, isBlank b = true)
    (cs : List Char) : readColon (blanks ++ ':' :: cs) = .ok cs := by
  rw [readColon, skipBlank_append hblanks, skipBlank_cons (by decide)]
  rfl

theorem exists_exact_of_isFinite {x : Float} (hx : x.isFinite = true) :
    ∃ negative m e, exact x = .finite negative m e := by
  obtain ⟨q, hq⟩ := (isFinite_iff x).1 hx
  unfold value? at hq
  split at hq
  · next h => exact ⟨_, _, _, h⟩
  · cases hq

theorem number?_layOut {x : Float} {negative : Bool} {m : ℕ} {e : ℤ}
    (hx : exact x = .finite negative m e) :
    (layOut negative (shortest .toEven m e)).number? = some (.real (reread x)) := by
  have hdigits : digitsOf x = written (shortest .toEven m e) := by
    rw [digitsOf, hx]
  have hfits : (layOut negative (shortest .toEven m e)).significand < UInt64.size := by
    have hle := coefficient_digitsOf_le x
    rw [significand_layOut, ← hdigits]
    change _ < 2 ^ 64
    omega
  have hwhole : (layOut negative (shortest .toEven m e)).isWhole = false := by
    rw [Numeral.isWhole, Bool.and_eq_false_imp, List.isEmpty_iff, Option.isNone_eq_false_iff]
    intro hfraction
    by_contra hexponent
    exact fraction_layOut_ne negative _ (Option.not_isSome_iff_eq_none.1 hexponent) hfraction
  rw [Numeral.number?, hwhole]
  change (Numeral.real? _).map Number.real = _
  rw [Numeral.real?_eq hfits, significand_layOut, lastExponent_layOut, layOut_negative, ← hdigits,
    scale?_digitsOf hx, reread, hx]
  rfl

theorem signed_append (negative : Bool) (cs rest : List Char) :
    signed negative cs ++ rest = signed negative (cs ++ rest) := by
  cases negative <;> rfl

section
variable {blanks rest : List Char} (hblanks : ∀ b ∈ blanks, isBlank b = true)
  (hrest : EndsNumber rest)
include hblanks

theorem readNumberAs_null (expected : String) :
    readNumberAs expected (blanks ++ (['n', 'u', 'l', 'l'] ++ rest)) =
      .error (.mismatched (.invalidType .null expected)) := by
  rw [readNumberAs, skipBlank_append hblanks]
  rfl

/-- A number is told by its first character. -/
theorem readNumberAs_signed (expected : String) {n : Numeral} (hn : n.Proper) (cs : List Char) :
    readNumberAs expected (blanks ++ signed n.negative (n.whole ++ cs)) =
      readNumber n.negative (n.whole ++ cs) := by
  rw [readNumberAs, skipBlank_append hblanks, signed]
  cases hnegative : n.negative with
  | true =>
    rw [if_pos rfl, skipBlank_cons (by decide)]
    rfl
  | false =>
    obtain ⟨d, ds, hwhole⟩ := List.exists_cons_of_ne_nil hn.whole_ne_nil
    have hdigit : d.isDigit = true := hn.whole_digits d (by rw [hwhole]; exact List.mem_cons_self)
    have hsign : d ≠ '-' := by
      rintro rfl
      exact absurd hdigit (by decide)
    rw [if_neg (by decide), hwhole, List.cons_append, skipBlank_cons (isBlank_of_isDigit hdigit)]
    split
    · next h => exact absurd h (List.cons_ne_nil _ _)
    · next h => exact absurd (List.cons.inj h).1 hsign
    · next h =>
      obtain ⟨rfl, rfl⟩ := List.cons.inj h
      exact if_pos hdigit

include hrest

theorem readNumberAs_of_number? (expected : String) {n : Numeral} (hn : n.Proper) {v : Number}
    (hv : n.number? = some v) :
    readNumberAs expected (blanks ++ (signed n.negative n.chars ++ rest)) = .ok (v, rest) := by
  have hread := readNumeral_chars hn hrest
  rw [signed_append]
  rw [Numeral.chars, List.append_assoc] at hread ⊢
  rw [readNumberAs_signed hblanks expected hn, readNumber, hread]
  simp only [bind, Except.bind, hv]
  rfl

theorem readCount_digits (n : UInt32) :
    readCount (blanks ++ (digits n.toNat ++ rest)) = .ok (n, rest) := by
  have hvalue : Nat.ofDigitChars 10 (digits n.toNat) 0 = n.toNat := Nat.ofDigitChars_ten_toDigits
  have hlt := n.toNat_lt
  have hnumber : Numeral.number? ⟨false, digits n.toNat, [], none⟩ = some (.natural n.toNat) := by
    have hfits : Nat.ofDigitChars 10 (digits n.toNat) 0 < UInt64.size := by
      rw [hvalue]
      change _ < 2 ^ 64
      omega
    rw [Numeral.number?, absorb_eq hfits, hvalue]
    rfl
  have hread := readNumberAs_of_number? hblanks hrest "u32" (proper_digits false n.toNat) hnumber
  have hchars : signed false (Numeral.chars ⟨false, digits n.toNat, [], none⟩) = digits n.toNat :=
    List.append_nil _
  rw [hchars] at hread
  have hcount : Number.toCount (.natural n.toNat) = .ok n := by
    rw [Number.toCount, if_pos hlt]
    exact congrArg Except.ok UInt32.ofNat_toNat
  rw [readCount, hread]
  simp only [bind, Except.bind, hcount]
  rfl

theorem readReal_chars {x : Float} (hx : x.isFinite = true) :
    readReal (blanks ++ (realChars x ++ rest)) = .ok (reread x, rest) := by
  obtain ⟨negative, m, e, hexact⟩ := exists_exact_of_isFinite hx
  have hproper : (layOut negative (shortest .toEven m e)).Proper := by
    apply layOut_proper
    rcases Nat.eq_zero_or_pos m with rfl | hm
    · exact Or.inr (by rw [shortest, if_pos rfl])
    · exact Or.inl ((Decimal.faithful_shortest .toEven e hm (exact_bounds hexact).1).coefficient_pos
        hm)
  have hread := readNumberAs_of_number? hblanks hrest "f64" hproper (number?_layOut hexact)
  rw [layOut_negative, ← magnitude_eq_chars] at hread
  rw [realChars, if_pos hx, Decimal.Layout.chars, hexact, readReal]
  change (readNumberAs "f64"
    (blanks ++ (signed negative (numbers.magnitude (shortest .toEven m e)) ++ rest))).bind _ = _
  rw [hread]
  rfl

end

end TileWorld.Json
