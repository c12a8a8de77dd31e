import TileWorld.Proofs.TileMap.Coordinate
import TileWorld.TileMap.Rows

/-! The tiles that an entity's box lies in, all of which are tiles of its corners. -/

namespace TileWorld

theorem between_tileCoord_iff {x : Float} {i : ℤ} :
    tileCoord x ≤ i ∧ i ≤ tileCoord (x + Entity.side) ↔
      i = tileCoord x ∨ i = tileCoord (x + Entity.side) := by
  have hle := tileCoord_le_add_side x
  have hle' := tileCoord_add_side_le x
  omega

namespace TileMap
variable {m : TileMap} {x y : Float}

theorem overlapsSolid_eq_false_iff : m.overlapsSolid x y Entity.side Entity.side = false ↔
    ∀ i j : ℤ, tileCoord x ≤ i ∧ i ≤ tileCoord (x + Entity.side) →
      tileCoord y ≤ j ∧ j ≤ tileCoord (y + Entity.side) → m.isSolid i j = false := by
  simp only [between_tileCoord_iff]
  unfold overlapsSolid
  simp only [Bool.or_eq_false_iff]
  constructor
  · rintro ⟨⟨⟨hlt, hrt⟩, hlb⟩, hrb⟩ i j (rfl | rfl) (rfl | rfl) <;> assumption
  · intro h
    exact ⟨⟨⟨h _ _ (.inl rfl) (.inl rfl), h _ _ (.inr rfl) (.inl rfl)⟩,
      h _ _ (.inl rfl) (.inr rfl)⟩, h _ _ (.inr rfl) (.inr rfl)⟩

/-- The four corners tell whether any tile that an entity's box lies in is solid, wherever the box
is: far out, where floats are further apart than tiles, and at what is no number as well. -/
theorem overlapsSolid_side_iff (m : TileMap) (x y : Float) :
    m.overlapsSolid x y Entity.side Entity.side = true ↔
      ∃ i j : ℤ, tileCoord x ≤ i ∧ i ≤ tileCoord (x + Entity.side) ∧
        tileCoord y ≤ j ∧ j ≤ tileCoord (y + Entity.side) ∧ m.isSolid i j = true := by
  rw [← Bool.not_eq_false, overlapsSolid_eq_false_iff]
  constructor
  · intro h
    push Not at h
    obtain ⟨i, j, hi, hj, hsolid⟩ := h
    exact ⟨i, j, hi.1, hi.2, hj.1, hj.2, Bool.not_eq_false _ ▸ hsolid⟩
  · rintro ⟨i, j, hi, hi', hj, hj', hsolid⟩ h
    rw [h i j ⟨hi, hi'⟩ ⟨hj, hj'⟩] at hsolid
    cases hsolid

/-- A box of more than a tile can lie around a block, with no corner in it. -/
example : (ofRows ["....", "....", "..#.", "...."]).map
    (fun m => (m.overlapsSolid 1 1 2 2, m.isSolid 2 2)) = .ok (false, true) := by decide +kernel

end TileMap

end TileWorld
