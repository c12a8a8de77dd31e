import TileWorld.Simulation.Basic
import TileWorld.Proofs.Population.Sweep

/-! What one frame does, said once: the spawned entities join the living ones, all of them move, and
the ones that still have life remain. A run is a number of such frames, however it is driven. -/

namespace TileWorld

namespace Entity

/-- The `k`-th of the entities that are drawn one after the other from `g`. -/
def drawn (m : TileMap) (g : Generator) (k : Nat) : Entity := (spawn m (g.skip (6 * k))).1

theorem drawn_skip (m : TileMap) (g : Generator) (a k : Nat) :
    drawn m (g.skip (6 * a)) k = drawn m g (a + k) := by
  rw [drawn, drawn, ← Generator.skip_add, Nat.mul_add]

end Entity

namespace Population

theorem spawnMany_snd (m : TileMap) (n : Nat) (p : Population) (g : Generator) :
    (p.spawnMany m n g).2 = g.skip (6 * n) := by
  induction n generalizing p g with
  | zero => rfl
  | succ n ih =>
    rw [spawnMany, ih, Nat.mul_succ, Nat.add_comm, Generator.skip_add]
    rfl

theorem toList_spawnMany (m : TileMap) (n : Nat) (p : Population) (g : Generator) :
    (p.spawnMany m n g).1.toList = p.toList ++ (List.range n).map (Entity.drawn m g) := by
  induction n generalizing p g with
  | zero => simp [spawnMany]
  | succ n ih =>
    have hshift : (List.range n).map (Entity.drawn m (g.skip 6)) =
        (List.range n).map fun k => Entity.drawn m g (k + 1) := by
      apply List.map_congr_left
      intro k _
      rw [Nat.add_comm]
      exact Entity.drawn_skip m g 1 k
    have hpush : (p.spawn m g).1.toList = p.toList ++ [Entity.drawn m g 0] := toList_push p _
    rw [spawnMany, ih, hpush, List.append_assoc, List.range_succ_eq_map, List.map_cons,
      List.map_map]
    exact congrArg (fun es => p.toList ++ Entity.drawn m g 0 :: es) hshift

end Population

namespace Simulation

theorem visitAll_visit (m : TileMap) (p : Physics) (checksum : Float) (es : List Entity) :
    visitAll (visit m p) checksum es =
      ((es.map (Entity.integrate m p)).foldl Entity.addTo checksum,
        (es.map (Entity.integrate m p)).filter (·.life > 0)) := by
  induction es generalizing checksum with
  | nil => rfl
  | cons e es ih =>
    simp only [visitAll, visit, ih, List.map_cons, List.foldl_cons, List.filter_cons]

/-- The entities that the next frame moves, in the order in which it moves them. -/
def joined (s : Simulation) : List Entity :=
  (s.population.spawnMany s.map s.config.spawnPerFrame.toNat s.generator).1.toList

def moved (s : Simulation) : List Entity := s.joined.map (Entity.integrate s.map s.physics)

theorem joined_eq (s : Simulation) :
    s.joined = s.population.toList ++
      (List.range s.config.spawnPerFrame.toNat).map (Entity.drawn s.map s.generator) :=
  Population.toList_spawnMany _ _ _ _

theorem populate_generator (c : Config) (m : TileMap) (g : Generator) :
    (populate c m g).generator = g.skip (6 * c.initialEntities.toNat) :=
  Population.spawnMany_snd _ _ _ _

theorem populate_population (c : Config) (m : TileMap) (g : Generator) :
    (populate c m g).population.toList =
      (List.range c.initialEntities.toNat).map (Entity.drawn m g) :=
  Population.toList_spawnMany _ _ _ _

theorem start_eq {c : Config} (hc : c.validate = .ok ()) : start c =
    .ok (populate c (TileMap.random c.width.toNat c.height.toNat c.solidProbability ⟨c.seed⟩).1
      ((⟨c.seed⟩ : Generator).skip (c.width.toNat * c.height.toNat))) := by
  rw [start, hc, ← TileMap.random_snd c.width.toNat c.height.toNat c.solidProbability]
  rfl

theorem start_of_invalid {c : Config} {v : Config.Violation} (hc : c.validate = .error v) :
    start c = .error v := by
  rw [start, hc]
  rfl

@[simp] theorem step_config (s : Simulation) : s.step.2.config = s.config := rfl

@[simp] theorem step_physics (s : Simulation) : s.step.2.physics = s.physics := rfl

@[simp] theorem step_map (s : Simulation) : s.step.2.map = s.map := rfl

@[simp] theorem step_frame (s : Simulation) : s.step.2.frame = s.frame + 1 := rfl

theorem step_generator (s : Simulation) :
    s.step.2.generator = s.generator.skip (6 * s.config.spawnPerFrame.toNat) :=
  Population.spawnMany_snd _ _ _ _

theorem step_checksum (s : Simulation) :
    s.step.2.checksum = s.moved.foldl Entity.addTo s.checksum := by
  refine (Population.sweep_fst _ _ _).trans ?_
  rw [visitAll_visit]
  rfl

theorem step_population (s : Simulation) :
    s.step.2.population.toList = s.moved.filter (·.life > 0) := by
  refine (Population.toList_sweep _ _ _).trans ?_
  rw [visitAll_visit]
  rfl

/-- A frame's counters, read off the list of the entities that it moves and of those that it
leaves. -/
theorem step_stats (s : Simulation) : s.step.1 =
    { frame := s.frame + 1
      spawned := s.config.spawnPerFrame.toNat
      processed := s.joined.length
      dropped := s.joined.length - s.step.2.activeCount
      active := s.step.2.activeCount
      grounded := s.step.2.population.groundedCount } := by
  rw [joined, Population.length_toList]
  rfl

@[simp] theorem step_totalSpawned (s : Simulation) :
    s.step.2.totalSpawned = s.totalSpawned + s.config.spawnPerFrame.toNat := rfl

theorem step_totalDropped (s : Simulation) :
    s.step.2.totalDropped = s.totalDropped + (s.joined.length - s.step.2.activeCount) := by
  rw [joined, Population.length_toList]
  rfl

theorem step_peakActive (s : Simulation) :
    s.step.2.peakActive = max s.peakActive s.joined.length := by
  rw [joined, Population.length_toList]
  rfl

theorem activeCount_eq (s : Simulation) : s.activeCount = s.population.toList.length :=
  (Population.length_toList _).symm

theorem length_joined (s : Simulation) :
    s.joined.length = s.activeCount + s.config.spawnPerFrame.toNat := by
  rw [joined_eq, List.length_append, List.length_map, List.length_range, activeCount_eq]

theorem step_activeCount_le (s : Simulation) : s.step.2.activeCount ≤ s.joined.length := by
  rw [activeCount_eq, step_population]
  exact Nat.le_trans (List.length_filter_le _ _) (Nat.le_of_eq (List.length_map _))

theorem runFrames_add (a b : Nat) (s : Simulation) :
    s.runFrames (a + b) = (s.runFrames a).runFrames b := by
  induction a generalizing s with
  | zero => rw [Nat.zero_add, runFrames]
  | succ a ih => rw [Nat.succ_add, runFrames, runFrames, ih]

theorem runFrames_succ (t : Nat) (s : Simulation) :
    s.runFrames (t + 1) = (s.runFrames t).step.2 := runFrames_add t 1 s

theorem runFrames_frame (n : Nat) (s : Simulation) : (s.runFrames n).frame = s.frame + n := by
  induction n with
  | zero => rfl
  | succ n ih => rw [runFrames_succ, step_frame, ih, Nat.add_assoc]

theorem runFrames_config (n : Nat) (s : Simulation) : (s.runFrames n).config = s.config := by
  induction n with
  | zero => rfl
  | succ n ih => rw [runFrames_succ, step_config, ih]

inductive Call where
  | step
  | runFrames (n : UInt32)
  | run

def call (s : Simulation) : Call → Simulation
  | .step => s.step.2
  | .runFrames n => s.runFrames n.toNat
  | .run => s.run

/-- The number of frames that a call makes. -/
def Call.frames (s : Simulation) : Call → Nat
  | .step => 1
  | .runFrames n => n.toNat
  | .run => s.config.frames.toNat - s.frame

def framesMade : Simulation → List Call → Nat
  | _, [] => 0
  | s, c :: cs => c.frames s + framesMade (s.call c) cs

theorem call_eq (s : Simulation) (c : Call) : s.call c = s.runFrames (c.frames s) := by
  cases c <;> rfl

/-- However a run is driven, it is driven by the frames that it makes. -/
theorem foldl_call_eq (s : Simulation) (cs : List Call) :
    cs.foldl call s = s.runFrames (framesMade s cs) := by
  induction cs generalizing s with
  | nil => rfl
  | cons c cs ih => rw [List.foldl_cons, ih, framesMade, runFrames_add, ← call_eq]

theorem exists_foldl_call (s : Simulation) (cs : List Call) :
    ∃ t, cs.foldl call s = s.runFrames t := ⟨_, foldl_call_eq s cs⟩

end Simulation

namespace Config

/-- A property of both ways to begin a run with a configuration: on the grid that it describes, and
on any given grid. The property is told the grid and the generator that the entities are drawn from.
Both ways have to succeed. -/
def EveryRun (c : Config) (P : TileMap → Generator → Simulation → Prop) : Prop :=
  let drawn := TileMap.random c.width.toNat c.height.toNat c.solidProbability ⟨c.seed⟩
  (∃ s, Simulation.start c = .ok s ∧ P drawn.1 drawn.2 s) ∧
    ∀ m, ∃ s, Simulation.startOn m c = .ok s ∧ P m ⟨c.seed⟩ s

theorem everyRun_of_populate {c : Config} {P : TileMap → Generator → Simulation → Prop}
    (hc : c.validate = .ok ()) (h : ∀ m g, P m g (Simulation.populate c m g)) : c.EveryRun P := by
  constructor
  · refine ⟨_, ?_, h _ _⟩
    rw [Simulation.start, hc]
    rfl
  · intro m
    refine ⟨_, ?_, h m _⟩
    rw [Simulation.startOn, hc]
    rfl

theorem EveryRun.imp {c : Config} {P Q : TileMap → Generator → Simulation → Prop}
    (h : c.EveryRun P) (hPQ : ∀ m g s, P m g s → Q m g s) : c.EveryRun Q := by
  obtain ⟨⟨s, hs, hP⟩, hon⟩ := h
  refine ⟨⟨s, hs, hPQ _ _ s hP⟩, fun m => ?_⟩
  obtain ⟨s, hs, hP⟩ := hon m
  exact ⟨s, hs, hPQ _ _ s hP⟩

theorem EveryRun.and {c : Config} {P Q : TileMap → Generator → Simulation → Prop}
    (hP : c.EveryRun P) (hQ : c.EveryRun Q) : c.EveryRun fun m g s => P m g s ∧ Q m g s := by
  obtain ⟨⟨s, hs, hPs⟩, hPon⟩ := hP
  obtain ⟨⟨s', hs', hQs⟩, hQon⟩ := hQ
  -- a run begins in one state only
  cases hs.symm.trans hs'
  refine ⟨⟨s, hs, hPs, hQs⟩, fun m => ?_⟩
  obtain ⟨s, hs, hPs⟩ := hPon m
  obtain ⟨s', hs', hQs⟩ := hQon m
  cases hs.symm.trans hs'
  exact ⟨s, hs, hPs, hQs⟩

end Config

end TileWorld
