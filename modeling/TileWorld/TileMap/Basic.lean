import TileWorld.Tile

/-!
A rectangular grid of tiles, stored row by row with `y` growing downward. Every coordinate has a
tile: outside the grid it is solid, so the grid is walled in without storing a border.
-/

namespace TileWorld

structure TileMap where
  width : Nat
  height : Nat
  cells : Array Tile
  size_cells : cells.size = width * height
deriving DecidableEq

namespace TileMap

abbrev Inside (m : TileMap) (x y : Int) : Prop :=
  0 ≤ x ∧ x < m.width ∧ 0 ≤ y ∧ y < m.height

theorem index_lt (m : TileMap) {x y : Int} (h : m.Inside x y) :
    y.toNat * m.width + x.toNat < m.cells.size := by
  obtain ⟨hx, hxw, hy, hyh⟩ := h
  have hx' : x.toNat < m.width := by omega
  have hy' : y.toNat + 1 ≤ m.height := by omega
  calc y.toNat * m.width + x.toNat < (y.toNat + 1) * m.width := by
        rw [Nat.succ_mul]; omega
    _ ≤ m.height * m.width := Nat.mul_le_mul_right _ hy'
    _ = m.cells.size := by rw [m.size_cells, Nat.mul_comm]

def query (m : TileMap) (x y : Int) : Tile :=
  if h : m.Inside x y then
    have := m.index_lt h
    m.cells[y.toNat * m.width + x.toNat]
  else
    .solid

@[inline] def isSolid (m : TileMap) (x y : Int) : Bool :=
  (m.query x y).isSolid

/-- The number of stored solid tiles; the wall around the grid is not counted. -/
def solidCount (m : TileMap) : Nat :=
  m.cells.count .solid

def toRows (m : TileMap) : List String :=
  (List.range m.height).map fun (y : Nat) =>
    String.ofList ((List.range m.width).map fun (x : Nat) => (m.query x y).glyph)

theorem query_of_not_inside {m : TileMap} {x y : Int} (h : ¬ m.Inside x y) :
    m.query x y = .solid := dif_neg h

theorem inside_of_query {m : TileMap} {x y : Int} (h : m.query x y = .empty) : m.Inside x y := by
  by_cases hi : m.Inside x y
  · exact hi
  · rw [query_of_not_inside hi] at h
    cases h

theorem isSolid_eq_false_iff {m : TileMap} {x y : Int} :
    m.isSolid x y = false ↔ m.query x y = .empty := by
  unfold isSolid
  cases m.query x y <;> simp [Tile.isSolid]

theorem inside_of_not_isSolid {m : TileMap} {x y : Int} (h : m.isSolid x y = false) :
    m.Inside x y := inside_of_query (isSolid_eq_false_iff.1 h)

end TileMap

end TileWorld
