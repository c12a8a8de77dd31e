import TileWorld.TileMap.Basic

/-!
Which tiles a point or a box lies in. A box is sampled at its four corners only, so a block that
lies wholly inside a box larger than a tile goes unseen.
-/

namespace TileWorld

/-- The tile coordinate of a position: truncated toward zero and held to 64 signed bits, with 0 for
a NaN. All of `(-1, 1)` therefore belongs to tile 0. -/
def tileCoord (v : Float) : Int :=
  if v < 0 then -((min (-v).toUInt64 0x8000000000000000).toNat : Int)
  else (min v.toUInt64 0x7FFFFFFFFFFFFFFF).toNat

example : tileCoord (-0.5) = 0 ∧ tileCoord (-1.5) = -1 ∧ tileCoord (1 / 0) = 2 ^ 63 - 1 ∧
    tileCoord (-1 / 0) = -2 ^ 63 ∧ tileCoord (0 / 0) = 0 := by decide +kernel

/-- Whether a corner of the box at `(x, y)` with width `w` and height `h` lies in a solid tile. -/
def TileMap.overlapsSolid (m : TileMap) (x y w h : Float) : Bool :=
  let left := tileCoord x
  let top := tileCoord y
  let right := tileCoord (x + w)
  let bottom := tileCoord (y + h)
  m.isSolid left top || m.isSolid right top || m.isSolid left bottom || m.isSolid right bottom

end TileWorld
