import TileWorld.Proofs.Motion.Phases
import TileWorld.Proofs.Simulation.Frames

/-! Who is alive in a run, with which life and which walker flag, is decided by the draws alone.
Neither the grid nor the physics has a say in it, so two runs that draw alike have the same
population although everything in them stands and moves differently. -/

namespace TileWorld

/-- The part of an entity that no move touches and that decides when it is dropped. -/
def Entity.fate (e : Entity) : Float × Bool := (e.life, e.walker)

theorem Entity.fate_spawn (m : TileMap) (g : Generator) :
    (spawn m g).1.fate = (leastLife + (g.skip 5).draw.1 * lifeSpread,
      ((g.skip 4).drawBelow walkerChance).1) := rfl

theorem Entity.fate_integrate (m : TileMap) (p : Physics) (e : Entity) :
    (e.integrate m p).fate = (e.fate.1 - 1, e.fate.2) := by
  rw [fate, integrate_life, integrate_walker, fate]

/-- What a run tells of its population without telling where anything is. -/
structure Census where
  active : Nat
  state : UInt32
  totalSpawned : Nat
  totalDropped : Nat
  peakActive : Nat
  lives : List Float
  walkers : List Bool
deriving DecidableEq

/-- The counters of a frame that are about who is there. -/
structure Turnover where
  spawned : Nat
  processed : Nat
  dropped : Nat
  active : Nat
deriving DecidableEq

def FrameStats.turnover (f : FrameStats) : Turnover :=
  ⟨f.spawned, f.processed, f.dropped, f.active⟩

/-- Two configurations that draw alike. The grids have equally many cells, whatever their shapes. -/
structure Config.DrawAlike (c c' : Config) : Prop where
  seed : c.seed = c'.seed
  initialEntities : c.initialEntities = c'.initialEntities
  spawnPerFrame : c.spawnPerFrame = c'.spawnPerFrame
  cells : c.width.toNat * c.height.toNat = c'.width.toNat * c'.height.toNat

namespace Simulation

def census (s : Simulation) : Census where
  active := s.activeCount
  state := s.generator.state
  totalSpawned := s.totalSpawned
  totalDropped := s.totalDropped
  peakActive := s.peakActive
  lives := s.population.toList.map (·.life)
  walkers := s.population.toList.map (·.walker)

/-- Two states of which each has the population of the other, as far as fates go. -/
structure Alike (s s' : Simulation) : Prop where
  spawnPerFrame : s.config.spawnPerFrame = s'.config.spawnPerFrame
  generator : s.generator = s'.generator
  fates : s.population.toList.map Entity.fate = s'.population.toList.map Entity.fate
  totalSpawned : s.totalSpawned = s'.totalSpawned
  totalDropped : s.totalDropped = s'.totalDropped
  peakActive : s.peakActive = s'.peakActive

theorem fates_drawn (m m' : TileMap) (g : Generator) (n : Nat) :
    ((List.range n).map (Entity.drawn m g)).map Entity.fate =
      ((List.range n).map (Entity.drawn m' g)).map Entity.fate := by
  rw [List.map_map, List.map_map]
  apply List.map_congr_left
  intro k _
  exact (Entity.fate_spawn m _).trans (Entity.fate_spawn m' _).symm

theorem fates_moved (s : Simulation) :
    s.moved.map Entity.fate = (s.joined.map Entity.fate).map fun f => (f.1 - 1, f.2) := by
  rw [moved, List.map_map, List.map_map]
  apply List.map_congr_left
  intro e _
  exact Entity.fate_integrate s.map s.physics e

theorem fates_step (s : Simulation) :
    s.step.2.population.toList.map Entity.fate =
      (s.moved.map Entity.fate).filter (·.1 > 0) := by
  rw [step_population, List.filter_map]
  rfl

theorem activeCount_eq_of_fates {s s' : Simulation}
    (h : s.population.toList.map Entity.fate = s'.population.toList.map Entity.fate) :
    s.activeCount = s'.activeCount := by
  have hlen := congrArg List.length h
  rwa [List.length_map, List.length_map, ← activeCount_eq, ← activeCount_eq] at hlen

namespace Alike

variable {s s' : Simulation} (h : Alike s s')
include h

theorem activeCount : s.activeCount = s'.activeCount := activeCount_eq_of_fates h.fates

theorem census_eq : s.census = s'.census := by
  have hlives := congrArg (List.map Prod.fst) h.fates
  have hwalkers := congrArg (List.map Prod.snd) h.fates
  rw [List.map_map, List.map_map] at hlives hwalkers
  rw [census, census, h.activeCount, h.generator, h.totalSpawned, h.totalDropped, h.peakActive,
    Census.mk.injEq]
  exact ⟨rfl, rfl, rfl, rfl, rfl, hlives, hwalkers⟩

theorem length_joined : s.joined.length = s'.joined.length := by
  rw [Simulation.length_joined, Simulation.length_joined, h.activeCount, h.spawnPerFrame]

theorem fates_joined : s.joined.map Entity.fate = s'.joined.map Entity.fate := by
  rw [joined_eq, joined_eq, List.map_append, List.map_append, h.fates, h.generator,
    h.spawnPerFrame, fates_drawn s.map s'.map]

/-- A frame ages all lives alike and drops by the life only. -/
theorem step : Alike s.step.2 s'.step.2 := by
  have hfates : s.step.2.population.toList.map Entity.fate =
      s'.step.2.population.toList.map Entity.fate := by
    rw [fates_step, fates_step, fates_moved, fates_moved, h.fates_joined]
  have hactive := activeCount_eq_of_fates hfates
  refine ⟨h.spawnPerFrame, ?_, hfates, ?_, ?_, ?_⟩
  · rw [step_generator, step_generator, h.generator, h.spawnPerFrame]
  · rw [step_totalSpawned, step_totalSpawned, h.totalSpawned, h.spawnPerFrame]
  · rw [step_totalDropped, step_totalDropped, h.totalDropped, h.length_joined, hactive]
  · rw [step_peakActive, step_peakActive, h.peakActive, h.length_joined]

theorem turnover_eq : s.step.1.turnover = s'.step.1.turnover := by
  rw [step_stats, step_stats]
  simp only [FrameStats.turnover, h.spawnPerFrame, h.length_joined, h.step.activeCount]

theorem runFrames (t : Nat) : Alike (s.runFrames t) (s'.runFrames t) := by
  induction t generalizing s s' with
  | zero => exact h
  | succ t ih => exact ih h.step

end Alike

theorem alike_populate {c c' : Config} (h : c.DrawAlike c') (m m' : TileMap) (g : Generator) :
    Alike (populate c m g) (populate c' m' g) := by
  have hcount : c.initialEntities.toNat = c'.initialEntities.toNat := by rw [h.initialEntities]
  refine ⟨h.spawnPerFrame, ?_, ?_, hcount, rfl, hcount⟩
  · rw [populate_generator, populate_generator, hcount]
  · rw [populate_population, populate_population, hcount, fates_drawn m m']

/-- Two runs that draw alike agree in their populations after every number of frames, whatever their
grids and physics are. -/
theorem census_of_drawAlike (c c' : Config) (hc : c.validate = .ok ()) (hc' : c'.validate = .ok ())
    (h : c.DrawAlike c') :
    ∃ s s', start c = .ok s ∧ start c' = .ok s' ∧ ∀ t,
      (s.runFrames t).census = (s'.runFrames t).census ∧
      (s.runFrames t).step.1.turnover = (s'.runFrames t).step.1.turnover := by
  refine ⟨_, _, start_eq hc, start_eq hc', fun t => ?_⟩
  rw [h.seed, h.cells]
  have halike := alike_populate h
    (TileMap.random c.width.toNat c.height.toNat c.solidProbability ⟨c'.seed⟩).1
    (TileMap.random c'.width.toNat c'.height.toNat c'.solidProbability ⟨c'.seed⟩).1
    ((⟨c'.seed⟩ : Generator).skip (c'.width.toNat * c'.height.toNat))
  exact ⟨(halike.runFrames t).census_eq, (halike.runFrames t).turnover_eq⟩

/-- The default configuration with its grid turned and filled, and with other physics. -/
def turned : Config :=
  { width := 72, height := 128, dt := 1, gravity := -3, friction := 0, solidProbability := 1 }

theorem census_on_turned_grid :
    ({} : Config).validate = .ok () ∧ turned.validate = .ok () ∧ ({} : Config).DrawAlike turned ∧
      ∃ s s', start {} = .ok s ∧ start turned = .ok s' ∧ ∀ t,
        (s.runFrames t).census = (s'.runFrames t).census ∧
        (s.runFrames t).step.1.turnover = (s'.runFrames t).step.1.turnover := by
  have halike : ({} : Config).DrawAlike turned := ⟨rfl, rfl, rfl, by decide⟩
  exact ⟨rfl, rfl, halike, census_of_drawAlike {} turned rfl rfl halike⟩

end Simulation

end TileWorld
