import TileWorld.Entity
import TileWorld.TileMap.Overlap

/-!
One frame of an entity's motion: gravity, a walker's turn at a ledge, the horizontal move, the
vertical move from where that ended, ground friction, and the end of one frame of life. A move into
a solid tile is not made at all.
-/

namespace TileWorld

structure Physics where
  dt : Float
  gravity : Float
  friction : Float
deriving DecidableEq

namespace Entity

/-- The part of its horizontal speed that an entity keeps, reversed, when it bumps into a wall. -/
def bounce : Float := 0.3

@[inline] def fall (p : Physics) (e : Entity) : Entity :=
  { e with vel := ⟨e.vel.x, e.vel.y + p.gravity * p.dt⟩ }

/-- A walker turns around when there is no floor one cell ahead; a wall ahead is not looked at. -/
@[inline] def turnAtLedge (m : TileMap) (e : Entity) : Entity :=
  if e.walker then
    let facing : Float := if e.vel.x ≥ 0 then 1 else -1
    if m.isSolid (tileCoord (e.pos.x + facing)) (tileCoord (e.pos.y + 1)) then e
    else { e with vel := ⟨-e.vel.x, e.vel.y⟩ }
  else e

@[inline] def moveAcross (m : TileMap) (p : Physics) (e : Entity) : Entity :=
  let x := e.pos.x + e.vel.x * p.dt
  if m.overlapsSolid x e.pos.y side side then { e with vel := ⟨-e.vel.x * bounce, e.vel.y⟩ }
  else { e with pos := ⟨x, e.pos.y⟩ }

/-- An entity whose way down is blocked is grounded, and stays so until a vertical move is made. -/
@[inline] def moveDown (m : TileMap) (p : Physics) (e : Entity) : Entity :=
  let y := e.pos.y + e.vel.y * p.dt
  if m.overlapsSolid e.pos.x y side side then
    { e with vel := ⟨e.vel.x, 0⟩, grounded := e.grounded || e.vel.y > 0 }
  else { e with pos := ⟨e.pos.x, y⟩, grounded := false }

@[inline] def rub (p : Physics) (e : Entity) : Entity :=
  if e.grounded then { e with vel := ⟨e.vel.x * (1 - p.friction * p.dt), e.vel.y⟩ } else e

@[inline] def age (e : Entity) : Entity :=
  { e with life := e.life - 1 }

def integrate (m : TileMap) (p : Physics) (e : Entity) : Entity :=
  e.fall p |>.turnAtLedge m |>.moveAcross m p |>.moveDown m p |>.rub p |>.age

/-- What an entity adds to a running checksum, coordinate by coordinate. -/
def addTo (checksum : Float) (e : Entity) : Float :=
  checksum + e.pos.x + e.pos.y + e.vel.x + e.vel.y

end Entity

end TileWorld
