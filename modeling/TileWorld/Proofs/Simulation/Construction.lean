import TileWorld.Proofs.Simulation.Frames
import TileWorld.Simulation.Summary

/-! The two ways to begin a run come to the same. A grid that is drawn first, and then given to a
run whose generator is the one that the drawing has left, takes that run on the course of the one
that draws the grid itself. The size and the probability in the configuration of the second run are
not looked at any more, and its seed is only echoed. -/

namespace TileWorld

/-- Two configurations whose runs take the same course on the same grid from the same generator. -/
structure Config.SameCourse (c c' : Config) : Prop where
  frames : c'.frames = c.frames
  initialEntities : c'.initialEntities = c.initialEntities
  spawnPerFrame : c'.spawnPerFrame = c.spawnPerFrame
  physics : c'.physics = c.physics

/-- The configuration for a run on a given grid that goes on drawing from `g`. How that grid came
about is not in it. -/
def Config.regrid (c : Config) (g : Generator) (width height : UInt32) (p : Float) : Config :=
  { c with seed := g.state, width, height, solidProbability := p }

namespace Simulation

/-- What a call gives back is the counters of the one frame that it makes, or the summary of the
run. -/
inductive Answer where
  | stats (f : FrameStats)
  | nothing
  | summary (s : Summary)

def answer (s : Simulation) : Call → Answer
  | .step => .stats s.step.1
  | .runFrames _ => .nothing
  | .run => .summary s.run.summary

/-- The answers to calls that are made one after the other. -/
def answers : Simulation → List Call → List Answer
  | _, [] => []
  | s, k :: ks => s.answer k :: answers (s.call k) ks

/-- The answer with another seed echoed in it. -/
def Answer.echo (seed : UInt32) : Answer → Answer
  | stats f => stats f
  | nothing => nothing
  | summary s => summary { s with seed }

section
variable {s : Simulation} {c' : Config} (h : s.config.SameCourse c')
include h

theorem step_of_sameCourse :
    step { s with config := c' } = (s.step.1, { s.step.2 with config := c' }) := by
  obtain ⟨config, physics, map, population, generator, frame, checksum, totalSpawned, totalDropped,
    peakActive⟩ := s
  have hspawn : c'.spawnPerFrame = config.spawnPerFrame := h.spawnPerFrame
  simp only [step, hspawn]

theorem runFrames_of_sameCourse (n : Nat) :
    runFrames n { s with config := c' } = { s.runFrames n with config := c' } := by
  induction n generalizing s with
  | zero => rfl
  | succ n ih =>
    rw [runFrames, step_of_sameCourse h, runFrames]
    exact ih (s := s.step.2) h

theorem call_of_sameCourse (k : Call) :
    call { s with config := c' } k = { s.call k with config := c' } := by
  have hframes : k.frames { s with config := c' } = k.frames s := by
    cases k with
    | step => rfl
    | runFrames n => rfl
    | run => exact congrArg (fun n : UInt32 => n.toNat - s.frame) h.frames
  rw [call_eq, call_eq, hframes]
  exact runFrames_of_sameCourse h _

theorem summary_of_sameCourse :
    summary { s with config := c' } = { s.summary with seed := c'.seed } := by
  simp only [summary, h.initialEntities, h.spawnPerFrame]
  rfl

theorem answer_of_sameCourse (k : Call) :
    answer { s with config := c' } k = (s.answer k).echo c'.seed := by
  cases k with
  | step => rw [answer, step_of_sameCourse h]; rfl
  | runFrames n => rfl
  | run =>
    have hrun : run { s with config := c' } = { s.run with config := c' } :=
      call_of_sameCourse h .run
    have hend : s.run.config.SameCourse c' := by rwa [run, runFrames_config]
    rw [answer, hrun, summary_of_sameCourse hend]
    rfl

end

theorem call_config (s : Simulation) (k : Call) : (s.call k).config = s.config := by
  rw [call_eq, runFrames_config]

/-- What two runs have in common after some calls: all of the state but the configuration, the
answers up to the seed that is echoed in them, and so the summary that they would give. -/
structure SameUpTo (c' : Config) (s s' : Simulation) (calls : List Call) : Prop where
  state : calls.foldl call s' = { calls.foldl call s with config := c' }
  answers : s'.answers calls = (s.answers calls).map (.echo c'.seed)
  summary : (calls.foldl call s').summary =
    { (calls.foldl call s).summary with seed := c'.seed }

/-- No call notices that the configuration has been exchanged. -/
theorem sameUpTo_of_sameCourse {s : Simulation} {c' : Config} (h : s.config.SameCourse c')
    (calls : List Call) : SameUpTo c' s { s with config := c' } calls := by
  induction calls generalizing s with
  | nil => exact ⟨rfl, rfl, summary_of_sameCourse h⟩
  | cons k calls ih =>
    have hrest := ih (s := s.call k) (by rwa [call_config])
    rw [← call_of_sameCourse h] at hrest
    refine ⟨hrest.state, ?_, hrest.summary⟩
    rw [answers, answers, List.map_cons, answer_of_sameCourse h, hrest.answers]

/-- A run on a grid that was drawn beforehand is the run that draws the grid. -/
theorem startOn_sameUpTo (c : Config) (hc : c.validate = .ok ()) (width height : UInt32)
    (p : Float) :
    let drawn := TileMap.random c.width.toNat c.height.toNat c.solidProbability ⟨c.seed⟩
    let c' := c.regrid drawn.2 width height p
    c'.validate = .ok () → ∃ s s', start c = .ok s ∧ startOn drawn.1 c' = .ok s' ∧
      ∀ calls, SameUpTo c' s s' calls := by
  intro drawn c' hc'
  have hstart : start c = .ok (populate c drawn.1 drawn.2) := by
    rw [start, hc]
    rfl
  have hstartOn : startOn drawn.1 c' = .ok { populate c drawn.1 drawn.2 with config := c' } := by
    rw [startOn, hc']
    rfl
  exact ⟨_, _, hstart, hstartOn, sameUpTo_of_sameCourse ⟨rfl, rfl, rfl, rfl⟩⟩

/-- The grid in the second configuration is neither the given one nor of its size. -/
theorem default_startOn_sameUpTo :
    let drawn := TileMap.random 128 72 ({} : Config).solidProbability ⟨123456789⟩
    let c' := ({} : Config).regrid drawn.2 3 4294967295 1
    ({} : Config).validate = .ok () ∧ c'.validate = .ok () ∧
      ∃ s s', start {} = .ok s ∧ startOn drawn.1 c' = .ok s' ∧ ∀ calls, SameUpTo c' s s' calls := by
  intro drawn c'
  have hvalid (g : Generator) :
      (Config.regrid {} g 3 4294967295 1).validate =
        (Config.regrid {} ⟨0⟩ 3 4294967295 1).validate := rfl
  have hc' : c'.validate = .ok () := (hvalid drawn.2).trans rfl
  exact ⟨rfl, hc', startOn_sameUpTo {} rfl 3 4294967295 1 hc'⟩

end Simulation

end TileWorld
