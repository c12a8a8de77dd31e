import TileWorld.TileMap.Basic
import TileWorld.Generator

/-!
The boxes that move about the grid. A new one is drawn with six draws, in the order `x`, `y`,
horizontal speed, vertical speed, walker flag, life, and is placed one cell clear of the edge.
-/

namespace TileWorld

structure Vec where
  x : Float
  y : Float
deriving DecidableEq

structure Entity where
  pos : Vec
  vel : Vec
  grounded : Bool
  /-- Walkers turn around at ledges. -/
  walker : Bool
  /-- The frames that are left, with a fractional part. -/
  life : Float
deriving DecidableEq

namespace Entity

def side : Float := 0.9

def walkerChance : Float := 0.25

def leastLife : Float := 300

def lifeSpread : Float := 600

def speedSpread : Vec := ⟨6, 2⟩

def spawn (m : TileMap) (g : Generator) : Entity × Generator :=
  let (dx, g) := g.draw
  let (dy, g) := g.draw
  let (dvx, g) := g.draw
  let (dvy, g) := g.draw
  let (walker, g) := g.drawBelow walkerChance
  let (dlife, g) := g.draw
  ({ pos := ⟨dx * (m.width.toFloat - 2) + 1, dy * (m.height.toFloat - 2) + 1⟩
     vel := ⟨(dvx - 0.5) * speedSpread.x, (dvy - 0.5) * speedSpread.y⟩
     grounded := false
     walker
     life := leastLife + dlife * lifeSpread }, g)

theorem spawn_snd (m : TileMap) (g : Generator) : (spawn m g).2 = g.skip 6 := rfl

end Entity

end TileWorld
