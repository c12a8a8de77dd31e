import TileWorld.Config.Validity
import TileWorld.Population.Basic
import TileWorld.TileMap.Random
import TileWorld.Motion

/-!
A run of the simulation. Each frame spawns new entities, moves every living entity once in the order
of birth, adds it to the checksum, and drops those whose life is used up. One generator feeds the
grid and all spawns.
-/

namespace TileWorld

def Config.physics (c : Config) : Physics := ⟨c.dt, c.gravity, c.friction⟩

/-- The state of a run. The counters in it are numbers; what becomes of a run on a machine, which
holds them in words, is told by `Simulation.callWord?`. -/
structure Simulation where
  config : Config
  physics : Physics
  map : TileMap
  population : Population
  generator : Generator
  frame : Nat
  checksum : Float
  totalSpawned : Nat
  totalDropped : Nat
  /-- The most entities that were ever moved in one frame, or were there at the start. -/
  peakActive : Nat
deriving DecidableEq

structure FrameStats where
  frame : Nat
  spawned : Nat
  processed : Nat
  dropped : Nat
  active : Nat
  grounded : Nat
deriving DecidableEq

namespace Simulation

/-- The state before the first frame, with the initial entities drawn from `g`. -/
def populate (c : Config) (m : TileMap) (g : Generator) : Simulation :=
  let initial := c.initialEntities.toNat
  let (population, generator) := (Population.emptyWithCapacity initial).spawnMany m initial g
  { config := c
    physics := c.physics
    map := m
    population
    generator
    frame := 0
    checksum := 0
    totalSpawned := initial
    totalDropped := 0
    peakActive := initial }

/-- The start of a run on the grid that the configuration describes, with as much storage as that
takes; its cells are drawn before any entity. -/
def start (c : Config) : Except Config.Violation Simulation := do
  c.validate
  let (m, g) := TileMap.random c.width.toNat c.height.toNat c.solidProbability ⟨c.seed⟩
  return populate c m g

/-- The same on a machine, which is stopped by a grid that it cannot store. -/
def start? (c : Config) : ExceptT Config.Violation Option Simulation := do
  c.validate
  let (m, g) ← TileMap.random? c.width.toUInt64 c.height.toUInt64 c.solidProbability ⟨c.seed⟩
  return populate c m g

/-- The start of a run on a given grid. The configuration's own grid is validated but not used. -/
def startOn (m : TileMap) (c : Config) : Except Config.Violation Simulation := do
  c.validate
  return populate c m ⟨c.seed⟩

def activeCount (s : Simulation) : Nat := s.population.size

/-- Moves an entity and adds it to the checksum; it is kept while it has life left. -/
@[inline] def visit (m : TileMap) (p : Physics) (checksum : Float) (e : Entity) : Visit Float :=
  let e := e.integrate m p
  ⟨e.addTo checksum, e, e.life > 0⟩

def step (s : Simulation) : FrameStats × Simulation :=
  match s with
  | ⟨config, physics, map, population, generator, frame, checksum, totalSpawned, totalDropped,
      peakActive⟩ =>
    let spawned := config.spawnPerFrame.toNat
    let (population, generator) := population.spawnMany map spawned generator
    let processed := population.size
    let (checksum, population) := population.sweep (visit map physics) checksum
    let active := population.size
    let dropped := processed - active
    let grounded := population.groundedCount
    ({ frame := frame + 1, spawned, processed, dropped, active, grounded },
      { config, physics, map, population, generator, checksum
        frame := frame + 1
        totalSpawned := totalSpawned + spawned
        totalDropped := totalDropped + dropped
        peakActive := max peakActive processed })

/-- Makes `n` frames, whatever the configured number is. -/
def runFrames : Nat → Simulation → Simulation
  | 0, s => s
  | n + 1, s => runFrames n s.step.2

/-- Makes the configured frames that are still to be made. -/
def run (s : Simulation) : Simulation :=
  s.runFrames (s.config.frames.toNat - s.frame)

end Simulation

end TileWorld
