import Mathlib.Logic.Function.Iterate
import TileWorld.Proofs.Simulation.Ledger
import TileWorld.Proofs.Simulation.Solitary

/-! What is drawn in a run. The grid takes one draw for each cell and every entity takes six, at the
place in the order of the draws that its number gives; nothing else draws. -/

namespace TileWorld

theorem Generator.skip_eq_iterate (n : Nat) (g : Generator) : g.skip n = ⟨step^[n] g.state⟩ := by
  induction n generalizing g with
  | zero => rfl
  | succ n ih => rw [skip, ih, Function.iterate_succ_apply]

namespace Simulation

/-- The entities that the next frame spawns. -/
def newborns (s : Simulation) : List Entity := s.joined.drop s.activeCount

/-- Every entity that has been spawned when `t` frames have been made from `s` on, from the ones that
are there at the start to the latest, and so also those that have been dropped. -/
def spawnedBy (s : Simulation) (t : Nat) : List Entity :=
  s.population.toList ++ (List.range t).flatMap fun f => (s.runFrames f).newborns

theorem newborns_eq (s : Simulation) :
    s.newborns =
      (List.range s.config.spawnPerFrame.toNat).map (Entity.drawn s.map s.generator) := by
  rw [newborns, joined_eq, activeCount_eq, List.drop_left]

theorem spawnedBy_succ (s : Simulation) (t : Nat) :
    s.spawnedBy (t + 1) = s.spawnedBy t ++ (s.runFrames t).newborns := by
  rw [spawnedBy, spawnedBy, List.range_succ, List.flatMap_append, List.flatMap_singleton,
    List.append_assoc]

open Solitary in
theorem spawnedBy_populate (c : Config) (m : TileMap) (g : Generator) (t : Nat) :
    (populate c m g).spawnedBy t = (List.range (drawnBy c t)).map (Entity.drawn m g) := by
  induction t with
  | zero =>
    rw [spawnedBy, List.range_zero, List.flatMap_nil, List.append_nil, drawnBy, Nat.zero_mul,
      Nat.add_zero, populate_population]
  | succ t ih =>
    -- the generator that a frame spawns from is past the draws of all entities before it
    have h : Follows c m g t ((populate c m g).runFrames t) := follows_runFrames t
    have hnew : ((populate c m g).runFrames t).newborns =
        ((List.range c.spawnPerFrame.toNat).map (drawnBy c t + ·)).map (Entity.drawn m g) := by
      rw [newborns_eq, h.config, h.map, h.generator, List.map_map]
      apply List.map_congr_left
      intro k _
      exact Entity.drawn_skip m g (drawnBy c t) k
    rw [spawnedBy_succ, ih, hnew, ← List.map_append, ← List.range_add, ← drawnBy_succ]

theorem runFrames_generator (s : Simulation) (t : Nat) :
    (s.runFrames t).generator = s.generator.skip (t * (6 * s.config.spawnPerFrame.toNat)) := by
  induction t generalizing s with
  | zero => rw [Nat.zero_mul]; rfl
  | succ t ih =>
    have hsum : (t + 1) * (6 * s.config.spawnPerFrame.toNat) =
        6 * s.config.spawnPerFrame.toNat + t * (6 * s.config.spawnPerFrame.toNat) := by
      rw [Nat.succ_mul, Nat.add_comm]
    rw [runFrames, ih, step_generator, step_config, ← Generator.skip_add, hsum]

/-- What a run from `s` on draws when `d` draws from the seed come before its first entity. The
states of the run are those that calls lead to with all counters in their words. -/
structure Draws (c : Config) (d : Nat) (s : Simulation) : Prop where
  reaches_iff : ∀ calls : List Call,
    (∃ s', calls.foldlM callWord? s = some s') ↔ framesMade s calls < 2 ^ 32
  state : ∀ (calls : List Call) (s' : Simulation), calls.foldlM callWord? s = some s' →
    s'.frame < 2 ^ 32 ∧ s'.generator.state = Generator.step^[d + 6 *
      (c.initialEntities.toNat + s'.frame * c.spawnPerFrame.toNat)] c.seed
  spawned : ∀ (calls : List Call) (s' : Simulation), calls.foldlM callWord? s = some s' →
    s.spawnedBy s'.frame =
      (List.range (c.initialEntities.toNat + s'.frame * c.spawnPerFrame.toNat)).map fun k =>
        (Entity.spawn s.map ⟨Generator.step^[d + 6 * k] c.seed⟩).1

open Solitary in
theorem draws_populate (c : Config) (m : TileMap) (d : Nat) :
    Draws c d (populate c m ((⟨c.seed⟩ : Generator).skip d)) where
  reaches_iff := exists_foldlM_callWord?_iff c m _
  state := by
    intro calls s' hcalls
    obtain ⟨rfl, hframe⟩ := eq_foldl_of_foldlM_callWord? (by decide : 0 < 2 ^ 32) hcalls
    refine ⟨hframe, ?_⟩
    have h (t : Nat) := follows_runFrames (c := c) (m := m) (g := (⟨c.seed⟩ : Generator).skip d) t
    rw [foldl_call_eq, (h _).generator, (h _).frame, ← Generator.skip_add,
      Generator.skip_eq_iterate]
    rfl
  spawned := by
    intro calls s' _
    rw [spawnedBy_populate]
    apply List.map_congr_left
    intro k _
    rw [Entity.drawn, ← Generator.skip_add, Generator.skip_eq_iterate]
    rfl

/-- A run's draws are those of its grid, if it draws one, and then six for every entity spawned, in
every state that calls lead to. They are the same whatever stands on the grid, whatever the grid is
and however things move on it. -/
theorem draws_of_validate (c : Config) (hc : c.validate = .ok ()) :
    (∃ s, start c = .ok s ∧ Draws c (c.width.toNat * c.height.toNat) s) ∧
    (∀ m, ∃ s, startOn m c = .ok s ∧ s.map = m ∧ Draws c 0 s) ∧
    (∀ s : Simulation, s.step.2.generator =
      (s.population.spawnMany s.map s.config.spawnPerFrame.toNat s.generator).2) ∧
    ∀ (s : Simulation) (population : Population) (map : TileMap) (physics : Physics) (t : Nat),
      ({ s with population, map, physics }.runFrames t).generator = (s.runFrames t).generator := by
  refine ⟨?_, ?_, ?_, ?_⟩
  · exact ⟨_, start_eq hc, draws_populate c _ _⟩
  · intro m
    refine ⟨populate c m ⟨c.seed⟩, ?_, rfl, draws_populate c m 0⟩
    rw [startOn, hc]
    rfl
  · intro s
    rfl
  · intro s population map physics t
    rw [runFrames_generator, runFrames_generator]

theorem default_draws :
    ({} : Config).validate = .ok () ∧
      (∃ s, start {} = .ok s ∧ Draws {} (128 * 72) s) ∧
      ∀ m, ∃ s, startOn m {} = .ok s ∧ s.map = m ∧ Draws {} 0 s :=
  have h := draws_of_validate {} rfl
  ⟨rfl, h.1, h.2.1⟩

end Simulation

end TileWorld
