import TileWorld.Proofs.Entity.Spawn
import TileWorld.Proofs.Motion.Speed
import TileWorld.Proofs.Simulation.Finite

/-! How fast the entities of a run get across. They are drawn with a speed of three at most, and
where friction is gentle no frame makes them faster. -/

namespace TileWorld

theorem Entity.within_drawn_speed (m : TileMap) (g : Generator) (k : ℕ) :
    Binary.Within 3 (Entity.drawn m g k).vel.x := by
  have hrange := inRange_centred (g.skip (6 * k)) 2 (n := 6) value?_speedSpread.1 (by norm_num)
    (by norm_num)
  norm_num at hrange
  obtain ⟨q, hq, hlower, hupper⟩ := hrange
  exact ⟨q, hq, abs_le.2 ⟨hlower, hupper.le⟩⟩

namespace Solitary
open Binary

variable {c : Config} {m : TileMap} {g : Generator}

theorem within_three_alone (hp : Within 1 (1 - c.friction * c.dt)) (k j : ℕ) :
    Within 3 (alone c m g k j).vel.x := by
  induction j with
  | zero => exact Entity.within_drawn_speed m g k
  | succ j ih =>
    rw [alone_succ]
    exact Entity.integrate_speed hp ih

theorem exists_alone_of_mem_joined {t : ℕ} {s : Simulation} (h : Follows c m g t s) {e : Entity}
    (he : e ∈ s.joined) : ∃ k j, e = alone c m g k j := by
  rw [h.joined_eq] at he
  obtain ⟨k, -, rfl⟩ := List.mem_map.1 he
  exact ⟨k, _, rfl⟩

end Solitary

namespace Simulation
open Binary Solitary

/-- No entity in the population is faster across than three, and none that the next frame moves gets
further in it than that speed leads. -/
structure Slow (s : Simulation) : Prop where
  speed : ∀ e ∈ s.population.toList, Within 3 e.vel.x
  crossing : ∀ e ∈ s.joined, e.CrossesWithin 3 s.map s.physics

theorem slow_of_follows {c : Config} (hc : c.Valid) (hp : c.physics.Gentle) {m : TileMap}
    {g : Generator} {t : ℕ} {s : Simulation} (h : Follows c m g t s) : s.Slow where
  speed e he := by
    obtain ⟨k, j, rfl, -⟩ := mem_population h he
    exact within_three_alone hp.within k j
  crossing e he := by
    obtain ⟨k, j, rfl⟩ := exists_alone_of_mem_joined h he
    rw [h.physics]
    exact Entity.crossesWithin (Config.sound_physics hc) (within_three_alone hp.within k j)

/-- With a factor of friction that is at most one in magnitude, no frame makes the speed across
larger. In a run where friction and the length of a frame multiply to a number between zero and two,
exactly or as it is computed, that speed is three at most in every state that is reached. -/
theorem speed_bounded :
    (∀ (m : TileMap) (p : Physics) (e : Entity), Within 1 (1 - p.friction * p.dt) →
      e.vel.x.isFinite → ∃ v v', value? e.vel.x = some v ∧
        value? (e.integrate m p).vel.x = some v' ∧ |v'| ≤ |v|) ∧
    (∀ (p : Physics) (f d : ℚ), value? p.friction = some f → value? p.dt = some d →
      0 ≤ f * d → f * d ≤ 2 → p.Gentle) ∧
    ∀ c : Config, c.validate = .ok () → c.physics.Gentle → c.EveryRun fun _ _ s =>
      ∀ calls : List Call, (calls.foldl call s).Slow := by
  refine ⟨?_, fun p f d hf hd => Physics.gentle_of_exact hf hd, ?_⟩
  · intro m p e hp hfinite
    obtain ⟨v, hv⟩ := (isFinite_iff _).1 hfinite
    obtain ⟨v', hv', hle⟩ : Within |v| (e.integrate m p).vel.x :=
      Entity.integrate_speed hp ⟨v, hv, le_rfl⟩
    exact ⟨v, v', hv, hv', hle⟩
  · intro c hc hp
    apply Config.everyRun_of_populate hc
    intro m g calls
    obtain ⟨t, ht⟩ := exists_foldl_call (populate c m g) calls
    rw [ht]
    exact slow_of_follows (Config.validate_eq_ok_iff.1 hc) hp (follows_runFrames t)

/-- A walker that turns at a ledge, bumps into the edge of the grid, and is turned once more by
friction that takes its speed away twice. -/
theorem speed_bounded_at_ledge :
    let m : TileMap := ⟨2, 2, #[.empty, .empty, .solid, .empty], rfl⟩
    let p : Physics := ⟨0.25, 18, 8⟩
    let e : Entity := ⟨⟨0.05, 0.05⟩, ⟨8, 0⟩, true, true, 3⟩
    value? p.friction = some 8 ∧ value? p.dt = some (1 / 4) ∧ p.Gentle ∧
      Within 1 (1 - p.friction * p.dt) ∧ e.vel.x.isFinite ∧
      (∃ v v', value? e.vel.x = some v ∧ value? (e.integrate m p).vel.x = some v' ∧ |v'| ≤ |v|) ∧
      ({} : Config).validate = .ok () ∧ ({} : Config).physics.Gentle ∧
      ({} : Config).EveryRun fun _ _ s => ∀ calls : List Call, (calls.foldl call s).Slow := by
  intro m p e
  have hfriction : value? p.friction = some 8 := by
    have hexact : Decimal.exact p.friction = .finite false (2 ^ 52) (-49) := by decide +kernel
    rw [value?_of_exact hexact]
    norm_num
  have hdt : value? p.dt = some (1 / 4) := by
    have hexact : Decimal.exact p.dt = .finite false (2 ^ 52) (-54) := by decide +kernel
    rw [value?_of_exact hexact, zpow_neg]
    norm_num
  have hfinite : e.vel.x.isFinite := by decide +kernel
  have hdefault : ({} : Config).physics.Gentle := by decide +kernel
  obtain ⟨hframe, hexact, hrun⟩ := speed_bounded
  have hgentle : p.Gentle := hexact p 8 (1 / 4) hfriction hdt (by norm_num) (by norm_num)
  exact ⟨hfriction, hdt, hgentle, hgentle.within, hfinite, hframe m p e hgentle.within hfinite,
    rfl, hdefault, hrun {} rfl hdefault⟩

end Simulation

end TileWorld
