import TileWorld.Proofs.Decimal.Fixed
import TileWorld.Simulation.Summary

/-! The text of a checksum. It is all that two runs are compared by, and it is the number with six
places that is nearest to the checksum. -/

namespace TileWorld
open Binary
open Decimal (Rounded exact signed)
open Json (Literal)

theorem checksumText_toList (x : Float) : (checksumText x).toList = Decimal.fixedChars 6 x :=
  String.toList_ofList

/-- The text of a finite checksum spells a number that has the sign of the checksum, also where this
is zero or rounded to zero, and six places; it is the nearest one to the exact checksum, and even if
there are two. The others have their names. Texts tell no more than bits do, and no larger number
from a smaller checksum. -/
theorem checksumText_rounded :
    (∀ x : Float, x.isFinite → ∃ l : Literal, Rounded 6 x l ∧ (checksumText x).toList = l.chars ∧
      (checksumText x).toList = signed (signBit x) (l.whole ++ '.' :: l.fraction)) ∧
    (∀ x : Float, x.isInf → checksumText x = if signBit x then "-inf" else "inf") ∧
    (∀ x : Float, x.isNaN → checksumText x = "NaN") ∧
    (∀ x y : Float, x.toBits = y.toBits → checksumText x = checksumText y) ∧
    ∀ x y : Float, x.isFinite → y.isFinite → x ≤ y → ∀ l l' : Literal,
      (checksumText x).toList = l.chars → (checksumText y).toList = l'.chars →
        l.value ≤ l'.value := by
  have hplaces : 0 < 6 := by decide
  have hspelled (x : Float) (hx : x.isFinite = true) : ∃ l : Literal, Rounded 6 x l ∧
      (checksumText x).toList = l.chars ∧
        (checksumText x).toList = signed (signBit x) (l.whole ++ '.' :: l.fraction) := by
    obtain ⟨q, hq⟩ := (isFinite_iff x).1 hx
    obtain ⟨m, e, hexact, -⟩ := exists_exact_of_value? hq
    have hchars := (checksumText_toList x).trans (Decimal.fixedChars_eq hplaces hexact)
    exact ⟨_, Decimal.rounded_fixedLiteral hplaces hexact, hchars,
      hchars.trans (Decimal.chars_fixedLiteral hplaces _ _)⟩
  refine ⟨hspelled, ?_, ?_, ?_, ?_⟩
  · intro x hx
    rw [checksumText, Decimal.fixedChars, exact_of_isInf hx]
    cases signBit x <;> rfl
  · intro x hx
    rw [checksumText, Decimal.fixedChars, exact_of_isNaN hx]
    rfl
  · intro x y hbits
    have hexact : exact x = exact y := by rw [exact, exact, hbits]
    rw [checksumText, checksumText, Decimal.fixedChars, Decimal.fixedChars, hexact]
  · intro x y hx hy hle l l' hl hl'
    obtain ⟨a, ha, hchars, -⟩ := hspelled x hx
    obtain ⟨b, hb, hchars', -⟩ := hspelled y hy
    rw [Literal.value_eq_of_chars (hl.symm.trans hchars),
      Literal.value_eq_of_chars (hl'.symm.trans hchars')]
    exact ha.value_mono hb hle

/-- A tie goes to the even last place, a negative number that is rounded to zero keeps its sign, and
so does an infinite one. -/
theorem checksumText_rounded_tie :
    let x : Float := -0.0000001
    let y : Float := 0.0078125
    x.isFinite ∧ y.isFinite ∧ (-1 / 0 : Float).isInf ∧ (0 / 0 : Float).isNaN ∧
      checksumText x = "-0.000000" ∧ checksumText y = "0.007812" ∧
      checksumText (-1 / 0) = "-inf" ∧ checksumText (0 / 0) = "NaN" ∧
      x.toBits = (0.0 - 0.0000001 : Float).toBits ∧
      checksumText x = checksumText (0.0 - 0.0000001) ∧ x ≤ y ∧
      ∃ l l' : Literal, Rounded 6 x l ∧ Rounded 6 y l' ∧ (checksumText x).toList = l.chars ∧
        (checksumText y).toList = l'.chars ∧ l.value ≤ l'.value := by
  intro x y
  have hx : x.isFinite := by decide +kernel
  have hy : y.isFinite := by decide +kernel
  have hinf : (-1 / 0 : Float).isInf := by decide +kernel
  have hnan : (0 / 0 : Float).isNaN := by decide +kernel
  have hbits : x.toBits = (0.0 - 0.0000001 : Float).toBits := by decide +kernel
  have hle : x ≤ y := by decide +kernel
  have hsign : signBit (-1 / 0) = true := by decide +kernel
  obtain ⟨hspelled, hinfinite, hnoNumber, hsame, hmono⟩ := checksumText_rounded
  obtain ⟨l, hl, hchars, -⟩ := hspelled x hx
  obtain ⟨l', hl', hchars', -⟩ := hspelled y hy
  refine ⟨hx, hy, hinf, hnan, by decide +kernel, by decide +kernel, ?_, hnoNumber _ hnan, hbits,
    hsame _ _ hbits, hle, l, l', hl, hl', hchars, hchars', hmono x y hx hy hle l l' hchars hchars'⟩
  rw [hinfinite _ hinf, if_pos hsign]

end TileWorld
