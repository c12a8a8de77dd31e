import TileWorld.Proofs.Motion.Grounded
import TileWorld.Proofs.Simulation.Solitary

/-! Which entities of a run are grounded: those that have landed and have made no vertical move
since. -/

namespace TileWorld.Simulation
open Solitary

/-- Every entity in the population has been moved in some frames of its life, and its flag says of
them what it should. -/
def Grounding (c : Config) (m : TileMap) (g : Generator) (s : Simulation) : Prop :=
  ∀ i e, s.population.get? i = some e →
    ∃ k n, (living c m g s.frame)[i]? = some k ∧ s.frame = birth c k + n ∧
      e = alone c m g k (n + 1) ∧ Entity.FlagTold m c.physics (alone c m g k) n

theorem grounding_of_follows {c : Config} {m : TileMap} {g : Generator} {t : Nat} {s : Simulation}
    (h : Follows c m g t s) (ht : 1 ≤ t) : Grounding c m g s := by
  intro i e he
  obtain ⟨k, n, hk, hframe, rfl⟩ := h.exists_age ht he
  exact ⟨k, n, hk, hframe, rfl, Entity.flagTold rfl (alone_succ k) n⟩

/-- After its first frame an entity is grounded only while it stands still, and exactly if it has
landed and made no vertical move since. With gravity that leads down it has landed in the last frame,
in which the ground has rubbed it. -/
theorem grounded_of_landed (c : Config) (hc : c.validate = .ok ()) : c.EveryRun fun m g s =>
    ∀ calls : List Call, 1 ≤ (calls.foldl call s).frame →
      Grounding c m g (calls.foldl call s) := by
  apply Config.everyRun_of_populate hc
  intro m g calls hframe
  obtain ⟨t, ht⟩ := exists_foldl_call (populate c m g) calls
  rw [ht] at hframe ⊢
  rw [(follows_runFrames t).frame] at hframe
  exact grounding_of_follows (follows_runFrames t) hframe

/-- A grid of one cell, with an entity drawn outside it that can move nowhere. -/
def pinned : Config := { initialEntities := 1, spawnPerFrame := 0, width := 1, height := 1, seed := 0 }

theorem pinned_grounded_of_landed :
    pinned.validate = .ok () ∧ ∃ s, start pinned = .ok s ∧
      ([Call.runFrames 2].foldl call s).frame = 2 ∧
      (([Call.runFrames 2].foldl call s).population.get? 0).map (·.grounded) = some true ∧
      Grounding pinned (TileMap.random 1 1 0.18 ⟨0⟩).1 (TileMap.random 1 1 0.18 ⟨0⟩).2
        ([Call.runFrames 2].foldl call s) := by
  obtain ⟨⟨s, hs, h⟩, -⟩ := grounded_of_landed pinned rfl
  have hstart : start pinned = .ok _ := start_eq rfl
  cases hs.symm.trans hstart
  refine ⟨rfl, _, hs, ?_, ?_, h [.runFrames 2] ?_⟩
  · rfl
  · decide +kernel
  · decide +kernel

end TileWorld.Simulation
