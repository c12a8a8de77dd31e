import Mathlib.Logic.Function.Iterate
import TileWorld.Proofs.Simulation.Ledger
import TileWorld.Simulation.Summary

/-! Into which calls a run is cut does not show in its state: that is the one after as many single
frames as the calls make. The frames that a configuration asks for are made one after the other for
as long as some are left, and that comes to an end. -/

namespace TileWorld.Simulation

/-- Making frames, with the counters in machine words, for as long as fewer than the configured
number have been made: the state at the start and the one in which this ends. -/
inductive RunsTo : Simulation → Simulation → Prop where
  | done {s : Simulation} (h : ¬ s.frame < s.config.frames.toNat) : RunsTo s s
  | frame {s s' : Simulation} {made : FrameStats × Simulation}
      (h : s.frame < s.config.frames.toNat) (hstep : s.stepWord? = some made)
      (hrest : RunsTo made.2 s') : RunsTo s s'

theorem runFrames_eq_iterate (n : Nat) (s : Simulation) :
    s.runFrames n = (fun s => s.step.2)^[n] s := by
  induction n generalizing s with
  | zero => rfl
  | succ n ih => rw [runFrames, ih, Function.iterate_succ_apply]

theorem run_of_le {s : Simulation} (h : s.config.frames.toNat ≤ s.frame) : s.run = s := by
  rw [run, Nat.sub_eq_zero_of_le h, runFrames]

theorem le_run_frame (s : Simulation) : s.run.config.frames.toNat ≤ s.run.frame := by
  rw [run, runFrames_config, runFrames_frame]
  omega

theorem run_run (s : Simulation) : s.run.run = s.run := run_of_le s.le_run_frame

theorem call_runFrames_add (s : Simulation) {a b : UInt32} (h : a.toNat + b.toNat < 2 ^ 32) :
    (s.call (.runFrames a)).call (.runFrames b) = s.call (.runFrames (a + b)) := by
  rw [call, call, call, ← runFrames_add, UInt32.toNat_add, Nat.mod_eq_of_lt h]

theorem runsTo_iff_of_left (c : Config) (m : TileMap) (g : Generator) {t left : Nat}
    (hleft : c.frames.toNat - t = left) {s' : Simulation} :
    RunsTo ((populate c m g).runFrames t) s' ↔ s' = (populate c m g).runFrames (t + left) := by
  -- the induction is on the frames that are left to be made
  induction left generalizing t with
  | zero =>
    have hframe := (balanced_runFrames c m g t).frame
    have hconfig := (balanced_runFrames c m g t).config
    have hdone : ¬ ((populate c m g).runFrames t).frame <
        ((populate c m g).runFrames t).config.frames.toNat := by
      rw [hframe, hconfig]
      omega
    constructor
    · rintro (_ | ⟨hmore, _, _⟩)
      · rfl
      · exact absurd hmore hdone
    · rintro rfl
      exact .done hdone
  | succ left ih =>
    have hframe := (balanced_runFrames c m g t).frame
    have hconfig := (balanced_runFrames c m g t).config
    have hfits := c.frames.toNat_lt
    have hstep := (balanced_runFrames c m g t).stepWord?_eq (by omega)
    have hmore : ((populate c m g).runFrames t).frame <
        ((populate c m g).runFrames t).config.frames.toNat := by
      rw [hframe, hconfig]
      omega
    have hrest : RunsTo ((populate c m g).runFrames t).step.2 s' ↔
        s' = (populate c m g).runFrames (t + (left + 1)) := by
      rw [← runFrames_succ, ih (by omega), Nat.add_right_comm, Nat.add_assoc]
    rw [← hrest]
    constructor
    · rintro (hdone | ⟨_, hmade, hrest⟩)
      · exact absurd hmore hdone
      · rw [hstep] at hmade
        cases hmade
        exact hrest
    · exact fun h => .frame hmore hstep h

theorem runsTo_iff (c : Config) (m : TileMap) (g : Generator) (t : Nat) {s' : Simulation} :
    RunsTo ((populate c m g).runFrames t) s' ↔ s' = ((populate c m g).runFrames t).run := by
  have hframe := (balanced_runFrames c m g t).frame
  have hconfig := (balanced_runFrames c m g t).config
  rw [run, ← runFrames_add, hframe, hconfig]
  exact runsTo_iff_of_left c m g rfl

/-- What holds of the state that calls with fewer than `2 ^ 32` frames in all have led to, and of
further calls from there. -/
structure Segmented (c : Config) (s₀ : Simulation) (calls : List Call) : Prop where
  state : calls.foldl call s₀ = (fun s => s.step.2)^[framesMade s₀ calls] s₀
  word : calls.foldlM callWord? s₀ = some (calls.foldl call s₀)
  runsTo : ∀ s', RunsTo (calls.foldl call s₀) s' ↔ s' = (calls.foldl call s₀).run
  run_twice : (calls.foldl call s₀).run.run = (calls.foldl call s₀).run ∧
    (calls.foldl call s₀).run.run.summary = (calls.foldl call s₀).run.summary
  split : ∀ a b : UInt32, a.toNat + b.toNat < 2 ^ 32 →
    ((calls.foldl call s₀).call (.runFrames a)).call (.runFrames b) =
      (calls.foldl call s₀).call (.runFrames (a + b))
  run_past : c.frames.toNat ≤ (calls.foldl call s₀).frame →
    (calls.foldl call s₀).run = calls.foldl call s₀ ∧
    (calls.foldl call s₀).run.summary.frames = framesMade s₀ calls

/-- However a run is cut into calls, only the number of its frames counts. -/
theorem everyRun_segmented (c : Config) (hc : c.validate = .ok ()) :
    c.EveryRun fun _ _ s₀ => ∀ calls, framesMade s₀ calls < 2 ^ 32 → Segmented c s₀ calls := by
  apply Config.everyRun_of_populate hc
  intro m g calls hcalls
  have hstate := foldl_call_eq (populate c m g) calls
  have hbalanced := balanced_runFrames c m g (framesMade (populate c m g) calls)
  rw [← hstate] at hbalanced
  refine ⟨?_, ?_, ?_, ⟨run_run _, congrArg summary (run_run _)⟩, ?_, ?_⟩
  · rw [hstate, runFrames_eq_iterate]
  · exact foldlM_callWord?_eq c m g 0 calls (by rwa [Nat.zero_add])
  · intro s'
    rw [hstate]
    exact runsTo_iff c m g _
  · intro a b hab
    exact call_runFrames_add _ hab
  · intro hpast
    have hframes := congrArg (fun c : Config => c.frames.toNat) hbalanced.config
    have hrun := run_of_le (Nat.le_trans (Nat.le_of_eq hframes) hpast)
    rw [hrun]
    exact ⟨rfl, hbalanced.frame⟩

def short : Config := { frames := 5 }

/-- The configured frames are run to before and after more have been made one by one. -/
theorem short_everyRun_segmented :
    let calls : List Call := [.runFrames 2, .run, .step, .runFrames 4294967289, .run]
    short.validate = .ok () ∧
      short.EveryRun fun _ _ s₀ => framesMade s₀ calls < 2 ^ 32 ∧ Segmented short s₀ calls := by
  intro calls
  have hcalls : short.EveryRun fun _ _ s₀ => framesMade s₀ calls < 2 ^ 32 := by
    apply Config.everyRun_of_populate rfl
    intro m g
    have hframe : (populate short m g).frame = 0 := rfl
    have hframes : (populate short m g).config.frames = 5 := rfl
    simp [calls, framesMade, Call.frames, call, run, runFrames_frame, runFrames_config, hframe,
      hframes]
  refine ⟨rfl, (hcalls.and (everyRun_segmented short rfl)).imp ?_⟩
  rintro m g s₀ ⟨hfits, hsegmented⟩
  exact ⟨hfits, hsegmented calls hfits⟩

end TileWorld.Simulation
