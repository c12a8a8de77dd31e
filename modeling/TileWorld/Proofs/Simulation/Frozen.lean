import TileWorld.Proofs.Motion.Frozen
import TileWorld.Proofs.Simulation.Finite
import TileWorld.Proofs.TileMap.Random

/-! Runs on a grid without an empty cell. Nobody ever leaves the place of birth. -/

namespace TileWorld.Simulation
open Solitary

/-- Every entity in the population has been moved in some frames of its life, and is frozen after
them. -/
def Freezing (c : Config) (m : TileMap) (g : Generator) (s : Simulation) : Prop :=
  ∀ i e, s.population.get? i = some e →
    ∃ k n, (living c m g s.frame)[i]? = some k ∧ s.frame = birth c k + n ∧
      e = alone c m g k (n + 1) ∧ Entity.Frozen c.physics (alone c m g k) n

theorem freezing_of_follows {c : Config} {m : TileMap} {g : Generator} {t : Nat} {s : Simulation}
    (h : Follows c m g t s) (ht : 1 ≤ t) (hm : m.Full) (hp : c.physics.Sound) :
    Freezing c m g s := by
  intro i e he
  obtain ⟨k, n, hk, hframe, rfl⟩ := h.exists_age ht he
  exact ⟨k, n, hk, hframe, rfl, Entity.frozen hm (alone_succ k) rfl hp n⟩

/-- A run freezes everybody on each grid without an empty cell, be it given or drawn with the
probability one. -/
theorem freezing_of_full (c : Config) (hc : c.validate = .ok ()) :
    let drawn := TileMap.random c.width.toNat c.height.toNat c.solidProbability ⟨c.seed⟩
    (c.solidProbability = 1 → ∃ s, start c = .ok s ∧
      ∀ t ≥ 1, Freezing c drawn.1 drawn.2 (s.runFrames t)) ∧
    ∀ m : TileMap, m.Full → ∃ s, startOn m c = .ok s ∧
      ∀ t ≥ 1, Freezing c m ⟨c.seed⟩ (s.runFrames t) := by
  intro drawn
  have hp := Config.sound_physics (Config.validate_eq_ok_iff.1 hc)
  have hrun : c.EveryRun fun m g s => m.Full → ∀ t ≥ 1, Freezing c m g (s.runFrames t) :=
    Config.everyRun_of_populate hc fun m g hm t ht =>
      freezing_of_follows (follows_runFrames t) ht hm hp
  obtain ⟨⟨s, hs, hfreezing⟩, hon⟩ := hrun
  constructor
  · intro hone
    refine ⟨s, hs, hfreezing ?_⟩
    rw [hone]
    exact TileMap.full_random _ _ _
  · intro m hm
    obtain ⟨s, hs, hfreezing⟩ := hon m
    exact ⟨s, hs, hfreezing hm⟩

/-- One entity on a grid of two cells that is solid throughout. -/
def walled : Config :=
  { initialEntities := 1, spawnPerFrame := 0, width := 2, height := 1, solidProbability := 1,
    seed := 0 }

theorem walled_freezing :
    let drawn := TileMap.random 2 1 1 ⟨0⟩
    let m : TileMap := ⟨1, 2, #[.solid, .solid], rfl⟩
    walled.validate = .ok () ∧ walled.solidProbability = 1 ∧ m.Full ∧
      (∃ s, start walled = .ok s ∧
        ((s.runFrames 2).population.get? 0).map (·.grounded) = some true ∧
        Freezing walled drawn.1 drawn.2 (s.runFrames 2)) ∧
      ∃ s, startOn m walled = .ok s ∧ Freezing walled m ⟨0⟩ (s.runFrames 2) := by
  intro drawn m
  have hm : m.Full := by decide
  obtain ⟨hdrawn, hgiven⟩ := freezing_of_full walled rfl
  obtain ⟨s, hs, hfreezing⟩ := hdrawn rfl
  obtain ⟨s', hs', hfreezing'⟩ := hgiven m hm
  refine ⟨rfl, rfl, hm, ⟨s, hs, ?_, hfreezing 2 (by decide)⟩, s', hs', hfreezing' 2 (by decide)⟩
  have hstart : start walled = .ok _ := start_eq rfl
  cases hs.symm.trans hstart
  decide +kernel

end TileWorld.Simulation
