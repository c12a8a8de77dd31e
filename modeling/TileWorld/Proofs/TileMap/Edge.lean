import TileWorld.Proofs.Binary.Overflow
import TileWorld.Proofs.TileMap.Coordinate

/-! Boxes along an axis that has an end. An infinite coordinate is as far out as a tile can be, so a
box that is in the tiles of the axis is at a number of its range, or at no number at all. -/

namespace TileWorld
open Binary Float.Model Float.Model.UnpackedFloat

/-- A box whose near edge is at `x` is in the tiles of an axis that has `n` of them. -/
def OnAxis (n : ℕ) (x : Float) : Prop := 0 ≤ tileCoord x ∧ tileCoord (x + Entity.side) < n

section
variable {x : Float}

theorem tileCoord_of_infinity (h : x.toModel.unpack = .infinity .positive) :
    tileCoord x = 2 ^ 63 - 1 := by
  have hinf : (1 / 0 : Float).toModel.unpack = .infinity .positive := rfl
  rw [tileCoord_congr (h.trans hinf.symm)]
  decide +kernel

theorem tileCoord_of_negative_infinity (h : x.toModel.unpack = .infinity .negative) :
    tileCoord x = -2 ^ 63 := by
  have hinf : (-1 / 0 : Float).toModel.unpack = .infinity .negative := rfl
  rw [tileCoord_congr (h.trans hinf.symm)]
  decide +kernel

theorem tileCoord_of_notANumber (h : x.toModel.unpack = .notANumber) : tileCoord x = 0 := by
  have hnan : (0 / 0 : Float).toModel.unpack = .notANumber := rfl
  rw [tileCoord_congr (h.trans hnan.symm)]
  decide +kernel

end

section
variable {n : ℕ} {x : Float} {q : ℚ}

theorem OnAxis.tileCoord_lt (h : OnAxis n x) : tileCoord x < n :=
  (tileCoord_le_add_side x).trans_lt h.2

theorem onAxis_of_value? (hx : value? x = some q) (hq : 0 ≤ q) (hn : farEdge q < n) :
    OnAxis n x := by
  have hfar : 0 ≤ farEdge q := hq.trans (le_farEdge hx)
  have hnear : truncate q = ⌊q⌋ := if_neg (not_lt.2 hq)
  have hfar' : truncate (farEdge q) = ⌊farEdge q⌋ := if_neg (not_lt.2 hfar)
  have hfloor : 0 ≤ ⌊q⌋ := Int.floor_nonneg.2 hq
  have hfloor' : 0 ≤ ⌊farEdge q⌋ := Int.floor_nonneg.2 hfar
  have hlt : ⌊farEdge q⌋ < n := Int.floor_lt.2 hn
  rw [OnAxis, tileCoord_eq hx, tileCoord_eq (value?_add_side hx), hnear, hfar', clamp, clamp]
  omega

theorem onAxis_of_none (hx : value? x = none) (h : 0 ≤ tileCoord x) (hn : tileCoord x < n) :
    OnAxis n x := by
  refine ⟨h, ?_⟩
  rwa [tileCoord_add_of_none hx value?_side]

/-- The longest axis that is considered has a tile less than there are coordinates. -/
theorem OnAxis.exists_value? (h : OnAxis n x) (hn : n < 2 ^ 63) (hx : x.isNaN = false) :
    ∃ q, value? x = some q ∧ -1 < q ∧ q < n := by
  have hnear := h.1
  have hlt := h.tileCoord_lt
  rcases number_or x with ⟨q, hq⟩ | ⟨s, hs⟩ | hnan
  · refine ⟨q, hq, ?_, ?_⟩
    · by_contra hle
      have hmono : truncate q ≤ truncate (-1) := truncate_mono (not_lt.1 hle)
      have hone : truncate (-1) = -1 := by norm_num [truncate]
      rw [tileCoord_eq hq, clamp] at hnear
      omega
    · by_contra hle
      have hmono : truncate (n : ℤ) ≤ truncate q := truncate_mono (by exact_mod_cast not_lt.1 hle)
      have hself : truncate (n : ℤ) = n := by
        rw [truncate, if_neg (not_lt.2 (by positivity)), Int.floor_intCast]
      rw [tileCoord_eq hq, clamp] at hlt
      omega
  · cases s with
    | positive =>
      rw [tileCoord_of_infinity hs] at hlt
      omega
    | negative =>
      rw [tileCoord_of_negative_infinity hs] at hnear
      omega
  · exact absurd hnan (isNaN_eq_false_iff.1 hx)

end

/-- What overlaps no solid tile is on the grid, which has solid tiles all around it. -/
theorem TileMap.onAxis_of_overlapsSolid {m : TileMap} {x y : Float}
    (h : m.overlapsSolid x y Entity.side Entity.side = false) :
    OnAxis m.width x ∧ OnAxis m.height y := by
  unfold overlapsSolid at h
  simp only [Bool.or_eq_false_iff] at h
  obtain ⟨⟨⟨hlt, -⟩, -⟩, hrb⟩ := h
  obtain ⟨hx, -, hy, -⟩ := inside_of_not_isSolid hlt
  obtain ⟨-, hx', -, hy'⟩ := inside_of_not_isSolid hrb
  exact ⟨⟨hx, hx'⟩, hy, hy'⟩

end TileWorld
