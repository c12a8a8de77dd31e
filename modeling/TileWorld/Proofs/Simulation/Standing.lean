import TileWorld.Proofs.Motion.Free
import TileWorld.Proofs.Simulation.Solitary

/-! Where the entities of a run stand: free of solid tiles, or where they were drawn. -/

namespace TileWorld.Simulation
open Solitary

/-- Every entity in the population is one of those drawn from `g`, and stands where it was drawn or
free of solid tiles. -/
def Standing (c : Config) (m : TileMap) (g : Generator) (s : Simulation) : Prop :=
  ∀ i e, s.population.get? i = some e →
    ∃ k, (living c m g s.frame)[i]? = some k ∧ e = alone c m g k (s.frame + 1 - birth c k) ∧
      (e.pos = (Entity.drawn m g k).pos ∨ e.Free m)

theorem standing_of_follows {c : Config} {m : TileMap} {g : Generator} {t : Nat} {s : Simulation}
    (h : Follows c m g t s) : Standing c m g s := by
  intro i e he
  obtain ⟨k, hk, rfl⟩ := h.exists_number he
  exact ⟨k, hk, rfl, Entity.iterate_cases m c.physics (Entity.drawn m g k) _⟩

/-- A move is made to a place that is free of solid tiles or not at all, in every frame of every
entity's motion and in every state that a run reaches. -/
theorem unmoved_or_free :
    (∀ (m : TileMap) (p : Physics) (e : Entity) (n : Nat),
      let before := (Entity.integrate m p)^[n] e
      let after := (Entity.integrate m p)^[n + 1] e
      after.pos = before.pos ∨ after.Free m) ∧
    (∀ (m : TileMap) (p : Physics) (e : Entity) (n : Nat),
      e.Free m → ((Entity.integrate m p)^[n] e).Free m) ∧
    ∀ c : Config, c.validate = .ok () → c.EveryRun fun m g s =>
      ∀ calls : List Call, Standing c m g (calls.foldl call s) := by
  refine ⟨?_, fun m p e n h => h.iterate n, ?_⟩
  · intro m p e n
    dsimp only
    rw [Function.iterate_succ_apply']
    exact Entity.integrate_cases m p _
  · intro c hc
    apply Config.everyRun_of_populate hc
    intro m g calls
    obtain ⟨t, ht⟩ := exists_foldl_call (populate c m g) calls
    rw [ht]
    exact standing_of_follows (follows_runFrames t)

theorem unmoved_or_free_above_floor :
    let m : TileMap := ⟨2, 2, #[.empty, .empty, .solid, .solid], rfl⟩
    let e : Entity := ⟨⟨0.05, 0.05⟩, ⟨1, 0⟩, false, true, 3⟩
    e.Free m ∧ ((Entity.integrate m ({} : Config).physics)^[9] e).Free m ∧
      ({} : Config).validate = .ok () ∧ ({} : Config).EveryRun fun m g s =>
        ∀ calls : List Call, Standing {} m g (calls.foldl call s) := by
  intro m e
  have hfree : e.Free m := by decide +kernel
  exact ⟨hfree, unmoved_or_free.2.1 m _ e 9 hfree, rfl, unmoved_or_free.2.2 {} rfl⟩

end TileWorld.Simulation
