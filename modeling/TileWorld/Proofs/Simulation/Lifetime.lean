import Mathlib.Algebra.Order.Floor.Semiring
import TileWorld.Proofs.Generator.Fraction
import TileWorld.Proofs.Motion.Phases
import TileWorld.Proofs.Simulation.Solitary

/-! How long an entity lives. A life is drawn as a multiple of `2 ^ -24`, and each frame takes
exactly one from it, so an entity with the drawn life `q` is moved in `⌈q⌉` frames. -/

namespace TileWorld

namespace Entity
open Binary

/-- The life of entity `k` in units of `2 ^ -24`. The last of the entity's six draws decides it. -/
def lifeUnits (g : Generator) (k : ℕ) : ℕ :=
  300 * 2 ^ 24 + Generator.numerator (Generator.step (g.skip (6 * k + 5)).state) * 600

def lifetime (g : Generator) (k : ℕ) : ℚ := lifeUnits g k / 2 ^ 24

theorem lifeUnits_bounds (g : Generator) (k : ℕ) :
    300 * 2 ^ 24 ≤ lifeUnits g k ∧ lifeUnits g k < 900 * 2 ^ 24 := by
  have := Generator.numerator_lt (Generator.step (g.skip (6 * k + 5)).state)
  unfold lifeUnits
  omega

theorem lifetime_bounds (g : Generator) (k : ℕ) : 300 ≤ lifetime g k ∧ lifetime g k < 900 := by
  obtain ⟨hle, hlt⟩ := lifeUnits_bounds g k
  rw [lifetime, le_div_iff₀ (by positivity), div_lt_iff₀ (by positivity)]
  exact ⟨by exact_mod_cast hle, by exact_mod_cast hlt⟩

/-- The arithmetic by which a life is drawn is exact. -/
theorem value?_drawn_life (m : TileMap) (g : Generator) (k : ℕ) :
    value? (drawn m g k).life = some (lifetime g k) := by
  set x := Generator.step (g.skip (6 * k + 5)).state with hx
  have hlife : (drawn m g k).life = leastLife + Generator.fraction x * lifeSpread := by
    rw [hx, Generator.skip_add]
    rfl
  have hspread : value? lifeSpread = some 600 := by
    have hexact : Decimal.exact lifeSpread = .finite false (600 * 2 ^ 43) (-43) := by decide +kernel
    rw [value?_of_exact hexact]
    norm_num
  have hleast : value? leastLife = some 300 := by
    have hexact : Decimal.exact leastLife = .finite false (300 * 2 ^ 44) (-44) := by decide +kernel
    rw [value?_of_exact hexact]
    norm_num
  have hlt := Generator.numerator_lt x
  have hscaled : value? (Generator.fraction x * lifeSpread) =
      some ((Generator.numerator x : ℚ) / 2 ^ 24 * 600) := by
    rw [value?_mul (Generator.value?_fraction x) hspread]
    apply nearest?_grid (n := (Generator.numerator x * 600 : ℕ))
    · push_cast
      ring
    · rw [Nat.abs_cast]
      omega
  have hsum : 300 + (Generator.numerator x : ℚ) / 2 ^ 24 * 600 = lifetime g k := by
    rw [lifetime, lifeUnits, ← hx]
    push_cast
    ring
  have hbound := (lifeUnits_bounds g k).2
  rw [hlife, value?_add hleast hscaled, hsum]
  apply nearest?_grid (n := lifeUnits g k)
  · rw [lifetime, Int.cast_natCast]
  · rw [Nat.abs_cast]
    omega

end Entity

namespace Solitary
open Binary Entity

variable {c : Config} {m : TileMap} {g : Generator} {k : ℕ}

/-- After `j` frames the life is less by exactly `j`, down to the frame in which it is used up. -/
theorem value?_alone_life {j : ℕ} (hj : j ≤ ⌈lifetime g k⌉₊) :
    value? (alone c m g k j).life = some (lifetime g k - j) := by
  induction j with
  | zero =>
    rw [Nat.cast_zero, sub_zero]
    exact value?_drawn_life m g k
  | succ j ih =>
    have hlife : (j : ℚ) < lifetime g k := Nat.lt_ceil.1 hj
    have hless : lifetime g k - j - 1 = lifetime g k - (j + 1 : ℕ) := by
      push_cast
      ring
    -- less than one is subtracted too much, so the result is still small
    have hunits : j * 2 ^ 24 < lifeUnits g k := by
      rw [lifetime, lt_div_iff₀ (by positivity)] at hlife
      exact_mod_cast hlife
    have hbound := (lifeUnits_bounds g k).2
    rw [alone_succ, integrate_life, value?_sub (ih (Nat.le_of_succ_le hj)) value?_one, hless]
    apply nearest?_grid (n := lifeUnits g k - (j + 1 : ℕ) * 2 ^ 24)
    · rw [lifetime]
      push_cast
      ring
    · rw [abs_lt]
      omega

theorem life_pos_iff {j : ℕ} (hj : j ≤ ⌈lifetime g k⌉₊) :
    (alone c m g k j).life > 0 ↔ j < ⌈lifetime g k⌉₊ := by
  rw [gt_iff_lt, lt_iff value?_zero (value?_alone_life hj), sub_pos, Nat.lt_ceil]

theorem livesThrough_iff (n : ℕ) : LivesThrough c m g n k ↔ n < ⌈lifetime g k⌉₊ := by
  constructor
  · intro h
    by_contra hn
    have hpos : 1 ≤ ⌈lifetime g k⌉₊ := by
      rw [Nat.one_le_ceil_iff]
      linarith [(lifetime_bounds g k).1]
    -- the life is used up after `⌈q⌉` frames, and those are among the `n`
    have hlast := h _ hpos (not_lt.1 hn)
    rw [life_pos_iff le_rfl] at hlast
    exact lt_irrefl _ hlast
  · intro hn i _ hi
    have hlt : i < ⌈lifetime g k⌉₊ := Nat.lt_of_le_of_lt hi hn
    exact (life_pos_iff hlt.le).2 hlt

/-- The frames of an entity in a run from `s` on: entity `k` is moved in the `⌈q⌉` frames that begin
with that of its birth, where `q` is its drawn life, is dropped in the last of them, and its life is
less by exactly one after each of them. -/
structure Lifetimes (c : Config) (m : TileMap) (g : Generator) (s : Simulation) : Prop where
  drawn : ∀ k, value? (Entity.drawn m g k).life = some (lifetime g k)
  life : ∀ k j, j ≤ ⌈lifetime g k⌉₊ → value? (alone c m g k j).life = some (lifetime g k - j)
  joined : ∀ t, (s.runFrames t).joined =
    ((List.range (drawnBy c (t + 1))).filter fun k =>
      birth c k ≤ t + 1 ∧ t + 1 < birth c k + ⌈lifetime g k⌉₊).map
        fun k => alone c m g k (t + 1 - birth c k)
  left : ∀ t, (s.runFrames (t + 1)).population.toList =
    ((List.range (drawnBy c (t + 1))).filter fun k =>
      birth c k ≤ t + 1 ∧ t + 1 + 1 < birth c k + ⌈lifetime g k⌉₊).map
        fun k => alone c m g k (t + 1 - birth c k + 1)

theorem everyRun_lifetimes (c : Config) (hc : c.validate = .ok ()) :
    c.EveryRun (Lifetimes c) := by
  apply Config.everyRun_of_populate hc
  intro m g
  refine ⟨value?_drawn_life m g, fun k j => value?_alone_life, ?_, ?_⟩
  · intro t
    rw [(follows_runFrames t).joined_eq, processed]
    congr 1
    apply List.filter_congr
    intro k _
    rw [decide_eq_decide, Processed, livesThrough_iff]
    omega
  · intro t
    have hage : ∀ k ∈ List.range (drawnBy c (t + 1)), birth c k ≤ t + 1 := by
      intro k hk
      have := birth_le (List.mem_range.1 hk)
      omega
    have hleft : living c m g (t + 1) = (List.range (drawnBy c (t + 1))).filter fun k =>
        birth c k ≤ t + 1 ∧ t + 1 + 1 < birth c k + ⌈lifetime g k⌉₊ := by
      apply List.filter_congr
      intro k hk
      have := hage k hk
      rw [decide_eq_decide, livesThrough_iff]
      omega
    rw [(follows_runFrames (t + 1)).population, hleft]
    apply List.map_congr_left
    intro k hk
    rw [Nat.succ_sub (hage k (List.mem_filter.1 hk).1)]

theorem default_everyRun_lifetimes :
    ({} : Config).validate = .ok () ∧ ({} : Config).EveryRun (Lifetimes {}) :=
  ⟨rfl, everyRun_lifetimes {} rfl⟩

end Solitary

end TileWorld
