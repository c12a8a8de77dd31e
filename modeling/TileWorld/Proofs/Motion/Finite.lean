import TileWorld.Proofs.Binary.Magnitude
import TileWorld.Proofs.Motion.Phases
import TileWorld.Proofs.TileMap.Edge

/-! How large the numbers of an entity get. A coordinate changes only if the new one is on the grid,
so it stays a number of the grid's range as long as the speed that changes it is a number or
infinite. The speed of a fall is bounded as well: when frames are long, a move is made only if the
speed is small, and otherwise the fall ends; when they are short, gravity adds so little in one of
them that a large speed is not changed any more. Nothing like that holds of the speed across, which
friction multiplies. -/

namespace TileWorld

/-- Physics that can be computed with, with time that goes on. -/
structure Physics.Sound (p : Physics) : Prop where
  timestep : ∃ d, Binary.value? p.dt = some d ∧ 0 < d
  gravity : ∃ g, Binary.value? p.gravity = some g

theorem Physics.Sound.pos {p : Physics} (hp : p.Sound) {d : ℚ} (hd : Binary.value? p.dt = some d) :
    0 < d := by
  obtain ⟨d', hd', hpos⟩ := hp.timestep
  cases hd.symm.trans hd'
  exact hpos

/-- What gravity adds to a speed in one frame may be infinite, but not a NaN. -/
theorem Physics.Sound.isNaN_gain {p : Physics} (hp : p.Sound) :
    (p.gravity * p.dt).isNaN = false := by
  obtain ⟨d, hd, hpos⟩ := hp.timestep
  obtain ⟨g, hg⟩ := hp.gravity
  exact Binary.isNaN_mul (Binary.isNaN_of_value? hg) hd hpos.ne'

/-- Friction that makes a speed twice as large at most. -/
def Physics.Damped (p : Physics) : Prop := -1 ≤ p.friction * p.dt ∧ p.friction * p.dt ≤ 3

instance (p : Physics) : Decidable p.Damped := inferInstanceAs (Decidable (_ ∧ _))

/-- A grid whose sides fit into 32 bits. -/
structure TileMap.Small (m : TileMap) : Prop where
  width : m.width < 2 ^ 32
  height : m.height < 2 ^ 32

namespace Entity
open Binary

theorem within_of_onAxis {n : ℕ} {x : Float} (hn : n < 2 ^ 32) (h : OnAxis n x)
    (hx : x.isNaN = false) : Within (2 ^ 34) x := by
  obtain ⟨q, hq, hlower, hupper⟩ := h.exists_value? (by omega) hx
  have hn' : (n : ℚ) ≤ 2 ^ 34 := by exact_mod_cast (by omega : n ≤ 2 ^ 34)
  refine ⟨q, hq, abs_le.2 ⟨?_, hupper.le.trans hn'⟩⟩
  norm_num
  linarith

/-- The bounds that every frame keeps. A speed that is no number allows every place. -/
structure Tame (e : Entity) : Prop where
  height : Within (2 ^ 34) e.pos.y
  fall : Within (2 ^ 700) e.vel.y
  across : e.vel.x.isNaN = false → Within (2 ^ 34) e.pos.x

section
variable {m : TileMap} {p : Physics} {e : Entity}

theorem isNaN_fall (hp : p.Sound) (h : Within (2 ^ 700) e.vel.y) :
    (e.fall p).vel.y.isNaN = false := by
  obtain ⟨v, hv, -⟩ := h
  exact isNaN_add hv hp.isNaN_gain

/-- In a short frame gravity adds too little to a fall for it to pass the bound. -/
theorem fall_of_short (hp : p.Sound) (h : Within (2 ^ 700) e.vel.y) {d : ℚ}
    (hd : value? p.dt = some d) (hshort : d < 1 / 2 ^ 400) :
    Within (2 ^ 700) (e.fall p).vel.y := by
  obtain ⟨g, hg⟩ := hp.gravity
  have hpos := hp.pos hd
  have hgain : Within (2 ^ 624) (p.gravity * p.dt) := by
    have hlargest : |g| ≤ 2 ^ 624 * 2 ^ 400 := by
      rw [← pow_add]
      exact (abs_le_of_value? hg).trans (sub_le_self _ (by positivity))
    have hle : |g * d| ≤ 2 ^ 624 := by
      rw [abs_mul, abs_of_pos hpos]
      calc |g| * d ≤ 2 ^ 624 * 2 ^ 400 * (1 / 2 ^ 400) :=
            mul_le_mul hlargest hshort.le hpos.le (by positivity)
        _ = 2 ^ 624 := by rw [mul_assoc, mul_one_div_cancel (by positivity), mul_one]
    exact within_of_nearest? (value?_mul hg hd) hle (by norm_num)
  exact h.add_small (k := 648) hgain (by norm_num) (by norm_num)

theorem turnAtLedge_across (h : e.vel.x.isNaN = false → Within (2 ^ 34) e.pos.x) :
    (e.turnAtLedge m).vel.x.isNaN = false → Within (2 ^ 34) (e.turnAtLedge m).pos.x := by
  rw [turnAtLedge_pos]
  intro hturned
  rcases e.turnAtLedge_cases m with ⟨_, hcase⟩ | hcase
  · rw [hcase] at hturned
    exact h (isNaN_of_neg hturned)
  · rw [hcase] at hturned
    exact h hturned

theorem moveAcross_across (hp : p.Sound) (hm : m.Small)
    (h : e.vel.x.isNaN = false → Within (2 ^ 34) e.pos.x) :
    (e.moveAcross m p).vel.x.isNaN = false → Within (2 ^ 34) (e.moveAcross m p).pos.x := by
  obtain ⟨d, hd, hpos⟩ := hp.timestep
  rcases e.moveAcross_cases m p with ⟨_, hcase⟩ | ⟨hfree, hcase⟩
  · rw [hcase]
    intro hbounced
    exact h (isNaN_of_neg (isNaN_of_mul hbounced))
  · rw [hcase]
    intro hspeed
    obtain ⟨x, hx, -⟩ := h hspeed
    have hgrid := (TileMap.onAxis_of_overlapsSolid hfree).1
    exact within_of_onAxis hm.width hgrid (isNaN_add hx (isNaN_mul hspeed hd hpos.ne'))

theorem moveDown_height (hp : p.Sound) (hm : m.Small) (h : Within (2 ^ 34) e.pos.y)
    (hspeed : e.vel.y.isNaN = false) : Within (2 ^ 34) (e.moveDown m p).pos.y := by
  obtain ⟨d, hd, hpos⟩ := hp.timestep
  rcases e.moveDown_cases m p with ⟨_, hcase⟩ | ⟨hfree, hcase⟩
  · rwa [hcase]
  · rw [hcase]
    obtain ⟨y, hy, -⟩ := h
    have hgrid := (TileMap.onAxis_of_overlapsSolid hfree).2
    exact within_of_onAxis hm.height hgrid (isNaN_add hy (isNaN_mul hspeed hd hpos.ne'))

/-- A fall that goes on in a long frame has led from one place on the grid to another. -/
theorem moveDown_fall (hp : p.Sound) (hm : m.Small) (h : Within (2 ^ 34) e.pos.y)
    (hspeed : e.vel.y.isNaN = false) (hshort : ∀ d, value? p.dt = some d → d < 1 / 2 ^ 400 →
      Within (2 ^ 700) e.vel.y) : Within (2 ^ 700) (e.moveDown m p).vel.y := by
  obtain ⟨d, hd, hpos⟩ := hp.timestep
  have hmoved := moveDown_height hp hm h hspeed
  rcases e.moveDown_cases m p with ⟨_, hcase⟩ | ⟨-, hcase⟩
  · rw [hcase]
    exact within_zero 700
  · rw [hcase] at hmoved ⊢
    rcases lt_or_ge d (1 / 2 ^ 400) with hlt | hge
    · exact hshort d hd hlt
    · have hway : Within (2 ^ 36) (e.vel.y * p.dt) := h.of_add hmoved
      exact (hway.of_mul hd hge).mono (by norm_num)

theorem rub_across (h : e.vel.x.isNaN = false → Within (2 ^ 34) e.pos.x) :
    (e.rub p).vel.x.isNaN = false → Within (2 ^ 34) (e.rub p).pos.x := by
  rw [rub_pos]
  intro hrubbed
  rcases e.rub_cases p with ⟨_, hcase⟩ | ⟨_, hcase⟩
  · rw [hcase] at hrubbed
    exact h (isNaN_of_mul hrubbed)
  · rw [hcase] at hrubbed
    exact h hrubbed

theorem Tame.integrate (hp : p.Sound) (hm : m.Small) (h : e.Tame) : (e.integrate m p).Tame := by
  have hy : Within (2 ^ 34) (((e.fall p).turnAtLedge m).moveAcross m p).pos.y := by
    rw [moveAcross_pos_y, turnAtLedge_pos]
    exact h.height
  have hspeed : (((e.fall p).turnAtLedge m).moveAcross m p).vel.y.isNaN = false := by
    rw [moveAcross_vel_y, turnAtLedge_vel_y]
    exact isNaN_fall hp h.fall
  have hshort (d : ℚ) (hd : value? p.dt = some d) (hlt : d < 1 / 2 ^ 400) :
      Within (2 ^ 700) (((e.fall p).turnAtLedge m).moveAcross m p).vel.y := by
    rw [moveAcross_vel_y, turnAtLedge_vel_y]
    exact fall_of_short hp h.fall hd hlt
  have hacross := moveAcross_across hp hm (turnAtLedge_across (m := m) (e := e.fall p) h.across)
  refine ⟨?_, ?_, rub_across ?_⟩
  · rw [integrate_pos]
    exact moveDown_height hp hm hy hspeed
  · rw [integrate_vel_y]
    exact moveDown_fall hp hm hy hspeed hshort
  · rwa [moveDown_vel_x, moveDown_pos_x]

theorem turnAtLedge_speed {b : ℚ} (h : Within b e.vel.x) : Within b (e.turnAtLedge m).vel.x := by
  rcases e.turnAtLedge_cases m with ⟨_, hcase⟩ | hcase
  · rw [hcase]
    exact h.neg
  · rwa [hcase]

theorem within_bounce : Within 1 bounce := by
  have hexact : Decimal.exact bounce = .finite false 5404319552844595 (-54) := by decide +kernel
  refine ⟨_, value?_of_exact hexact, ?_⟩
  rw [zpow_neg]
  norm_num [abs_le]

theorem moveAcross_speed {b : ℚ} (h : Within b e.vel.x) :
    Within b (e.moveAcross m p).vel.x := by
  rcases e.moveAcross_cases m p with ⟨_, hcase⟩ | ⟨_, hcase⟩
  · rw [hcase]
    exact h.neg.mul_of_le_one within_bounce
  · rwa [hcase]

/-- Up to the friction a frame changes the speed across only by turning it around, and by the part
of it that a wall leaves. -/
theorem moved_speed {b : ℚ} (h : Within b e.vel.x) :
    Within b ((((e.fall p).turnAtLedge m).moveAcross m p).moveDown m p).vel.x := by
  have hturned : Within b ((e.fall p).turnAtLedge m).vel.x :=
    turnAtLedge_speed (e := e.fall p) h
  rw [moveDown_vel_x]
  exact moveAcross_speed hturned

theorem within_of_damped (h : p.Damped) : Within (2 ^ 1) (1 - p.friction * p.dt) := by
  have hthree : value? 3 = some 3 := by
    have hexact : Decimal.exact 3 = .finite false (3 * 2 ^ 51) (-51) := by decide +kernel
    rw [value?_of_exact hexact]
    norm_num
  have hone := value?_neg value?_one
  obtain ⟨q, hq⟩ := exists_value?_of_le hone hthree h.1 h.2
  have hlower := (le_iff hone hq).1 h.1
  have hupper := (le_iff hq hthree).1 h.2
  have habs : |1 - q| ≤ 2 ^ 1 := abs_le.2 ⟨by linarith, by linarith⟩
  exact within_of_nearest? (value?_sub value?_one hq) habs (by norm_num)

theorem rub_speed {k : ℕ} (hp : p.Damped) (hk : k + 1 < 1024) (h : Within (2 ^ k) e.vel.x) :
    Within (2 ^ (k + 1)) (e.rub p).vel.x := by
  rcases e.rub_cases p with ⟨_, hcase⟩ | ⟨_, hcase⟩
  · rw [hcase]
    exact h.mul (within_of_damped hp) hk
  · rw [hcase]
    exact h.mono (Nat.le_succ k)

theorem speed_integrate {k : ℕ} (hp : p.Damped) (hk : k + 1 < 1024) (h : Within (2 ^ k) e.vel.x) :
    Within (2 ^ (k + 1)) (e.integrate m p).vel.x := rub_speed hp hk (moved_speed h)

end

end Entity

end TileWorld
