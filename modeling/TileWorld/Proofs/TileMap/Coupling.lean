import TileWorld.Proofs.TileMap.Random

/-! Grids drawn from one generator with different probabilities. A cell is decided by the same draw
in each of them, so a larger probability adds solid cells and takes none away. -/

namespace TileWorld

namespace Generator
open Binary

/-- No draw is negative, and none is less than what is no number. -/
theorem not_nth_lt {p : Float} (g : Generator) (k : ℕ) (hp : p ≤ 0 ∨ p.isNaN = true) :
    ¬ g.nth k < p := by
  intro hk
  rcases hp with hp | hnan
  · obtain ⟨d, hd, hnonneg, -⟩ := g.exists_value?_nth k
    exact not_lt.2 hnonneg ((lt_iff hd value?_zero).1 (nth_lt_of_le hk hp))
  · rw [isNaN_of_le (Binary.le_of_lt hk)] at hnan
    cases hnan

end Generator

namespace TileMap
variable {width height : ℕ} {p q : Float} {g : Generator}

/-- The wall around the grid is solid with every probability. -/
theorem isSolid_random_of_le (hpq : p ≤ q) (x y : ℤ)
    (h : (random width height p g).1.isSolid x y = true) :
    (random width height q g).1.isSolid x y = true := by
  by_cases hinside : (random width height q g).1.Inside x y
  · obtain ⟨hx, hxw, hy, hyh⟩ := hinside
    lift x to ℕ using hx
    lift y to ℕ using hy
    have hxw : x < width := Int.ofNat_lt.1 hxw
    have hyh : y < height := Int.ofNat_lt.1 hyh
    unfold isSolid at h ⊢
    rw [query_random _ _ hxw hyh, Tile.isSolid_ofBool, decide_eq_true_eq] at h ⊢
    exact Generator.nth_lt_of_le h hpq
  · rw [isSolid, query_of_not_inside hinside, Tile.isSolid]

theorem solidCount_random_le (hpq : p ≤ q) :
    (random width height p g).1.solidCount ≤ (random width height q g).1.solidCount := by
  have hsize (p : Float) : (random width height p g).1.width = width ∧
      (random width height p g).1.height = height := ⟨rfl, rfl⟩
  exact solidCount_le (hsize p) (hsize q) (isSolid_random_of_le hpq)

theorem bare_random (hp : p ≤ 0 ∨ p.isNaN = true) : (random width height p g).1.Bare := by
  intro t ht
  obtain ⟨k, rfl⟩ := exists_of_mem_random ht
  rw [decide_eq_false (g.not_nth_lt k hp)]
  rfl

/-- What grids of one size and the generators behind them have to do with each other when `drawn`
has them for every probability, and what they are with those probabilities that settle every
cell. -/
structure Coupled (width height : ℕ) (drawn : Float → TileMap × Generator) : Prop where
  generator : ∀ p q : Float, (drawn p).2 = (drawn q).2
  isSolid : ∀ p q : Float, p ≤ q → ∀ x y : ℤ, (drawn p).1.isSolid x y = true →
    (drawn q).1.isSolid x y = true
  solidCount : ∀ p q : Float, p ≤ q → (drawn p).1.solidCount ≤ (drawn q).1.solidCount
  bare : ∀ p : Float, p ≤ 0 ∨ p.isNaN = true → (drawn p).1.Bare ∧ (drawn p).1.solidCount = 0
  full : ∀ p : Float, 1 ≤ p → (drawn p).1.Full ∧ (drawn p).1.solidCount = width * height

theorem coupled_random (width height : ℕ) (g : Generator) :
    Coupled width height fun p => random width height p g where
  generator _ _ := by rw [random_snd, random_snd]
  isSolid _ _ := isSolid_random_of_le
  solidCount _ _ hpq := solidCount_random_le hpq
  bare _ hp := ⟨bare_random hp, (bare_random hp).solidCount_eq⟩
  full _ hp := ⟨full_random_of_one_le hp, (full_random_of_one_le hp).solidCount_eq⟩

/-- If the cells can be stored, there is a grid with every probability, and they are coupled. -/
theorem coupled_of_storable (width height : UInt64) (hsize : width.toNat * height.toNat < 2 ^ 63)
    (g : Generator) : ∃ drawn : Float → TileMap × Generator,
      (∀ p, random? width height p g = some (drawn p)) ∧
      Coupled width.toNat height.toNat drawn := by
  exact ⟨_, fun p => random?_eq_some_iff.2 ⟨hsize, rfl⟩,
    coupled_random width.toNat height.toNat g⟩

/-- Of two draws one half exceeds the second only, and seven eighths exceed both. -/
theorem coupled_at_half :
    (2 : UInt64).toNat * (1 : UInt64).toNat < 2 ^ 63 ∧
    ∃ drawn : Float → TileMap × Generator, (∀ p, random? 2 1 p ⟨123456789⟩ = some (drawn p)) ∧
      ((0.5 : Float) ≤ 0.875 ∧
        ∀ x y : ℤ, (drawn 0.5).1.isSolid x y = true → (drawn 0.875).1.isSolid x y = true) ∧
      ((drawn 0.5).1.toRows = [".#"] ∧ (drawn 0.875).1.toRows = ["##"]) ∧
      ((0 / 0 : Float).isNaN = true ∧ (drawn (0 / 0)).1.Bare) ∧
      ((1 : Float) ≤ 1 / 0 ∧ (drawn (1 / 0)).1.Full) := by
  have hsize : (2 : UInt64).toNat * (1 : UInt64).toNat < 2 ^ 63 := by decide
  obtain ⟨drawn, hdrawn, hcoupled⟩ := coupled_of_storable 2 1 hsize ⟨123456789⟩
  have hrows (p : Float) : (drawn p).1.toRows = (random 2 1 p ⟨123456789⟩).1.toRows := by
    rw [← (random?_eq_some_iff.1 (hdrawn p)).2]
    rfl
  have hle : (0.5 : Float) ≤ 0.875 := by decide +kernel
  have hnan : (0 / 0 : Float).isNaN = true := by decide +kernel
  have hone : (1 : Float) ≤ 1 / 0 := by decide +kernel
  refine ⟨hsize, drawn, hdrawn, ⟨hle, hcoupled.isSolid _ _ hle⟩, ?_,
    ⟨hnan, (hcoupled.bare _ (.inr hnan)).1⟩, ⟨hone, (hcoupled.full _ hone).1⟩⟩
  rw [hrows, hrows]
  decide +kernel

/-- A grid of these sides, each of which can be configured, is drawn with no probability. -/
theorem not_coupled_of_too_high :
    ¬ ∃ drawn : Float → TileMap × Generator,
      (∀ p, random? 4294967295 4294967295 p ⟨123456789⟩ = some (drawn p)) ∧
      Coupled 4294967295 4294967295 drawn := by
  rintro ⟨drawn, hdrawn, -⟩
  exact absurd (random?_eq_some_iff.1 (hdrawn 1)).1 (by decide)

end TileMap

end TileWorld
