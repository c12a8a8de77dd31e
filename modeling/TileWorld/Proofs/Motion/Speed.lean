import TileWorld.Proofs.Motion.Finite

/-! How fast an entity gets across. A frame turns its speed around, at a ledge or at a wall, and
multiplies it by what a wall and friction leave of it. If friction leaves no more than there was,
the speed never grows, because a product with a factor of at most one is not rounded beyond the
other factor. -/

namespace TileWorld
open Binary

/-- Friction that in one frame takes the speed away twice at most, so that at worst it is the same
speed in the other direction that is left. -/
def Physics.Gentle (p : Physics) : Prop := 0 ≤ p.friction * p.dt ∧ p.friction * p.dt ≤ 2

instance (p : Physics) : Decidable p.Gentle := inferInstanceAs (Decidable (_ ∧ _))

namespace Physics
variable {p : Physics}

theorem Gentle.within (hp : p.Gentle) : Within 1 (1 - p.friction * p.dt) := by
  obtain ⟨q, hq⟩ := exists_value?_of_le value?_zero value?_two hp.1 hp.2
  have hlower := (le_iff value?_zero hq).1 hp.1
  have hupper := (le_iff hq value?_two).1 hp.2
  have habs : |1 - q| ≤ 2 ^ 0 := abs_le.2 ⟨by linarith, by linarith⟩
  have hfactor := within_of_nearest? (value?_sub value?_one hq) habs (by norm_num)
  rwa [pow_zero] at hfactor

/-- Rounding does not lead out of the range, so it may as well be asked of the exact product. -/
theorem gentle_of_exact {f d : ℚ} (hf : value? p.friction = some f) (hd : value? p.dt = some d)
    (hlower : 0 ≤ f * d) (hupper : f * d ≤ 2) : p.Gentle := by
  have habs : |f * d| ≤ 2 ^ 1 := abs_le.2 ⟨by linarith, by linarith⟩
  obtain ⟨hnearest, hbound⟩ := nearest?_of_abs_le (by norm_num) habs
  have hproduct := (value?_mul hf hd).trans hnearest
  rw [pow_one] at hbound
  exact ⟨(le_iff value?_zero hproduct).2 (nearest_nonneg hlower),
    (le_iff hproduct value?_two).2 (abs_le.1 hbound).2⟩

end Physics

namespace Entity
variable {m : TileMap} {p : Physics} {e : Entity} {b : ℚ}

/-- Whatever bounds the speed across before a frame, be it the speed itself, bounds it behind. -/
theorem integrate_speed (hp : Within 1 (1 - p.friction * p.dt)) (h : Within b e.vel.x) :
    Within b (e.integrate m p).vel.x := by
  have hmoved : Within b ((((e.fall p).turnAtLedge m).moveAcross m p).moveDown m p).vel.x :=
    moved_speed h
  rw [integrate, age_vel]
  rcases rub_cases p ((((e.fall p).turnAtLedge m).moveAcross m p).moveDown m p) with
    ⟨_, hcase⟩ | ⟨_, hcase⟩
  · rw [hcase]
    exact hmoved.mul_of_le_one hp
  · rwa [hcase]

/-- The speed of the move across, which is made after the turn at a ledge. -/
def speedAcross (m : TileMap) (p : Physics) (e : Entity) : Float :=
  ((e.fall p).turnAtLedge m).vel.x

/-- The next frame leads across by a speed of at most `b`, or not at all. The way is the exact
product of speed and time, before it is rounded and added to the place. -/
structure CrossesWithin (b : ℚ) (m : TileMap) (p : Physics) (e : Entity) : Prop where
  way : ∃ v d, value? (e.speedAcross m p) = some v ∧ value? p.dt = some d ∧ |v * d| ≤ b * d
  place : (e.integrate m p).pos.x = e.pos.x ∨
    (e.integrate m p).pos.x = e.pos.x + e.speedAcross m p * p.dt

theorem crossesWithin (hp : p.Sound) (h : Within b e.vel.x) : e.CrossesWithin b m p where
  way := by
    obtain ⟨d, hd, hpos⟩ := hp.timestep
    obtain ⟨v, hv, hle⟩ : Within b (e.speedAcross m p) := turnAtLedge_speed (e := e.fall p) h
    refine ⟨v, d, hv, hd, ?_⟩
    rw [abs_mul, abs_of_pos hpos]
    exact mul_le_mul_of_nonneg_right hle hpos.le
  place := by
    have hturned : ((e.fall p).turnAtLedge m).pos = e.pos := turnAtLedge_pos m (e.fall p)
    rw [integrate_pos, moveDown_pos_x, ← hturned]
    rcases moveAcross_cases m p ((e.fall p).turnAtLedge m) with ⟨_, hcase⟩ | ⟨_, hcase⟩
    · exact Or.inl (by rw [hcase])
    · exact Or.inr (by rw [hcase]; rfl)

end Entity

end TileWorld
