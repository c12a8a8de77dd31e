import TileWorld.Proofs.Entity.Placement
import TileWorld.Proofs.Simulation.Lifetime
import TileWorld.Proofs.TileMap.Random

/-! What a new entity is, and within which ranges. Its six draws are multiples of `2 ^ -24`, and its
speeds and its life are computed from them exactly; its coordinates are rounded, but not as far as
to the cell at the end of the axis. -/

namespace TileWorld

namespace Generator
open Binary

/-- Draw number `k` from `g` as a multiple of `2 ^ -24`: the low 24 bits of the state that it leaves
behind. -/
def units (g : Generator) (k : ℕ) : ℕ := numerator (g.skip (k + 1)).state

theorem value?_nth (g : Generator) (k : ℕ) :
    value? (g.nth k) = some ((g.units k : ℚ) / 2 ^ 24) := by
  have hstep : (g.skip (k + 1)).state = step (g.skip k).state := by
    rw [skip_add]
    rfl
  rw [units, hstep]
  exact value?_fraction _

theorem units_lt (g : Generator) (k : ℕ) : (g.units k : ℚ) / 2 ^ 24 < 1 := by
  rw [div_lt_one (by positivity)]
  exact_mod_cast numerator_lt _

end Generator

namespace Entity
open Binary

/-- The float is a number that is at least `a` and less than `b`. -/
def InRange (a b : ℚ) (x : Float) : Prop := ∃ q, value? x = some q ∧ a ≤ q ∧ q < b

theorem value?_centred (g : Generator) (k : ℕ) {s : Float} {n : ℕ} (hs : value? s = some (n : ℚ))
    (hn : n ≤ 2 ^ 24) :
    value? ((g.nth k - 0.5) * s) = some (((g.units k : ℚ) / 2 ^ 24 - 1 / 2) * n) := by
  have hlt : g.units k < 2 ^ 24 := Generator.numerator_lt _
  have habs : |(g.units k : ℤ) - 2 ^ 23| ≤ 2 ^ 23 := by
    rw [abs_le]
    omega
  have hsub : value? (g.nth k - 0.5) = some ((g.units k : ℚ) / 2 ^ 24 - 1 / 2) := by
    rw [value?_sub (g.value?_nth k) value?_half]
    apply nearest?_grid (n := g.units k - 2 ^ 23)
    · push_cast
      ring
    · exact habs.trans_lt (by norm_num)
  rw [value?_mul hsub hs]
  apply nearest?_grid (n := (g.units k - 2 ^ 23) * n)
  · push_cast
    ring
  · have hn' : (n : ℤ) ≤ 2 ^ 24 := by exact_mod_cast hn
    rw [abs_mul, Nat.abs_cast]
    calc |(g.units k : ℤ) - 2 ^ 23| * (n : ℤ) ≤ 2 ^ 23 * 2 ^ 24 :=
          mul_le_mul habs hn' (by positivity) (by positivity)
      _ < 2 ^ 53 := by norm_num

theorem inRange_centred (g : Generator) (k : ℕ) {s : Float} {n : ℕ} (hs : value? s = some (n : ℚ))
    (hpos : 0 < n) (hn : n ≤ 2 ^ 24) : InRange (-(n / 2)) (n / 2) ((g.nth k - 0.5) * s) := by
  have hlt := g.units_lt k
  have hn' : (0 : ℚ) < n := by exact_mod_cast hpos
  have hle : 0 ≤ (g.units k : ℚ) / 2 ^ 24 * n := by positivity
  have hlt' : (g.units k : ℚ) / 2 ^ 24 * n < 1 * n := mul_lt_mul_of_pos_right hlt hn'
  refine ⟨_, value?_centred g k hs hn, ?_, ?_⟩ <;> linarith

theorem inRange_place {n : ℕ} (x : UInt32) (hn : 3 ≤ n) (hn' : n < 2 ^ 64) :
    InRange 1 (n - 1) (place x n) := by
  have hfinite : nearest n < 2 ^ 1024 := by
    have hle : |(n : ℚ)| ≤ 2 ^ 64 := by
      rw [Nat.abs_cast]
      exact_mod_cast hn'.le
    have hnearest := (abs_le.1 (nearest?_of_abs_le (by norm_num) hle).2).2
    exact hnearest.trans_lt (pow_lt_pow_right₀ (by norm_num) (by norm_num))
  obtain ⟨d, hd, hd', hvalue⟩ := value?_place x (by omega) hfinite
  exact ⟨_, hvalue, placed_bounds hn hd hd'⟩

/-- A new entity `e` on the grid `m`, the draws from `g` that make it, and the generator `g'` behind
them. -/
structure Spawned (m : TileMap) (g : Generator) (e : Entity) (g' : Generator) : Prop where
  generator : g' = g.skip 6
  draw : ∀ k, value? (g.nth k) = some ((g.units k : ℚ) / 2 ^ 24) ∧ InRange 0 1 (g.nth k)
  pos : e.pos = ⟨g.nth 0 * (m.width.toFloat - 2) + 1, g.nth 1 * (m.height.toFloat - 2) + 1⟩
  vel : e.vel = ⟨(g.nth 2 - 0.5) * 6, (g.nth 3 - 0.5) * 2⟩
  grounded : e.grounded = false
  walker : e.walker = decide (g.nth 4 < 0.25)
  life : e.life = 300 + g.nth 5 * 600
  pos_range : InRange 1 (m.width - 1) e.pos.x ∧ InRange 1 (m.height - 1) e.pos.y
  vel_range : InRange (-3) 3 e.vel.x ∧ InRange (-1) 1 e.vel.y
  vel_exact : value? e.vel.x = some (((g.units 2 : ℚ) / 2 ^ 24 - 1 / 2) * 6) ∧
    value? e.vel.y = some (((g.units 3 : ℚ) / 2 ^ 24 - 1 / 2) * 2)
  life_range : InRange 300 900 e.life
  life_exact : value? e.life = some (300 + (g.units 5 : ℚ) / 2 ^ 24 * 600)

theorem value?_spawn_life (m : TileMap) (g : Generator) :
    value? (spawn m g).1.life = some (300 + (g.units 5 : ℚ) / 2 ^ 24 * 600) := by
  have hlife : lifetime g 0 = 300 + (g.units 5 : ℚ) / 2 ^ 24 * 600 := by
    have hunits : lifeUnits g 0 = 300 * 2 ^ 24 + g.units 5 * 600 := rfl
    rw [lifetime, hunits]
    push_cast
    ring
  rw [← hlife]
  exact value?_drawn_life m g 0

theorem spawned_spawn (m : TileMap) (g : Generator) (hwidth : 3 ≤ m.width ∧ m.width < 2 ^ 64)
    (hheight : 3 ≤ m.height ∧ m.height < 2 ^ 64) : Spawned m g (spawn m g).1 (spawn m g).2 where
  generator := spawn_snd m g
  draw k := ⟨g.value?_nth k, _, g.value?_nth k, by positivity, g.units_lt k⟩
  pos := rfl
  vel := rfl
  grounded := rfl
  walker := rfl
  life := rfl
  pos_range := ⟨inRange_place _ hwidth.1 hwidth.2, inRange_place _ hheight.1 hheight.2⟩
  vel_range := by
    have hx := inRange_centred g 2 (n := 6) value?_speedSpread.1 (by norm_num) (by norm_num)
    have hy := inRange_centred g 3 (n := 2) value?_speedSpread.2 (by norm_num) (by norm_num)
    norm_num at hx hy
    exact ⟨hx, hy⟩
  vel_exact := ⟨value?_centred g 2 (n := 6) value?_speedSpread.1 (by norm_num),
    value?_centred g 3 (n := 2) value?_speedSpread.2 (by norm_num)⟩
  life_range := by
    have hlt := g.units_lt 5
    have hle : 0 ≤ (g.units 5 : ℚ) / 2 ^ 24 := by positivity
    refine ⟨_, value?_spawn_life m g, ?_, ?_⟩ <;> linarith
  life_exact := value?_spawn_life m g

/-- The largest draw, on the longest axis that 32 bits can count. -/
theorem spawned_at_far_end :
    let m := (TileMap.random 4294967295 3 0.5 ⟨1⟩).1
    let g : Generator := ⟨1670177767⟩
    (3 ≤ m.width ∧ m.width < 2 ^ 64) ∧ (3 ≤ m.height ∧ m.height < 2 ^ 64) ∧
      g.units 0 = 2 ^ 24 - 1 ∧ Spawned m g (spawn m g).1 (spawn m g).2 := by
  intro m g
  have hwidth : 3 ≤ m.width ∧ m.width < 2 ^ 64 := by decide
  have hheight : 3 ≤ m.height ∧ m.height < 2 ^ 64 := by decide
  exact ⟨hwidth, hheight, by decide, spawned_spawn m g hwidth hheight⟩

end Entity

end TileWorld
