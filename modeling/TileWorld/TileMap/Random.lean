import TileWorld.Generator
import TileWorld.Machine
import TileWorld.TileMap.Basic

/-!
Grids drawn from a generator: one draw for each cell, row by row, solid where the draw is below the
given probability. Every cell takes its draw, whatever the probability.
-/

namespace TileWorld.TileMap

def drawCells (p : Float) : Nat → Array Tile → Generator → Array Tile × Generator
  | 0, cells, g => (cells, g)
  | n + 1, cells, g =>
    let (solid, g) := g.drawBelow p
    drawCells p n (cells.push (.ofBool solid)) g

theorem size_drawCells (p : Float) (n : Nat) (cells : Array Tile) (g : Generator) :
    (drawCells p n cells g).1.size = cells.size + n := by
  induction n generalizing cells g with
  | zero => rfl
  | succ n ih => simp [drawCells, ih, Nat.add_comm, Nat.add_left_comm]

theorem drawCells_snd (p : Float) (n : Nat) (cells : Array Tile) (g : Generator) :
    (drawCells p n cells g).2 = g.skip n := by
  induction n generalizing cells g with
  | zero => rfl
  | succ n ih => exact ih _ _

/-- The drawn grid and the generator after its `width * height` draws, with as much storage as the
grid takes. -/
def random (width height : Nat) (p : Float) (g : Generator) : TileMap × Generator :=
  let drawn := drawCells p (width * height) #[] g
  (⟨width, height, drawn.1, by simp [drawn, size_drawCells]⟩, drawn.2)

theorem random_snd (width height : Nat) (p : Float) (g : Generator) :
    (random width height p g).2 = g.skip (width * height) :=
  drawCells_snd p (width * height) #[] g

/-- The same on a machine. The number of cells is a product of words, and each cell takes a byte. -/
def random? (width height : UInt64) (p : Float) (g : Generator) :
    Option (TileMap × Generator) := do
  let cells ← Machine.product? width height
  Machine.reserve? 1 cells.toNat
  return random width.toNat height.toNat p g

end TileWorld.TileMap
