import TileWorld.Proofs.Binary.Overflow
import TileWorld.Proofs.Generator.Fraction
import TileWorld.Proofs.Machine
import TileWorld.Proofs.TileMap.Cells
import TileWorld.TileMap.Random

/-! Grids drawn from a generator. The cell in column `x` of row `y` is decided by the draw whose
number is its place in the row order, and by no other. -/

namespace TileWorld

namespace Generator
open Binary

/-- Draw number `k` from `g`, counted from zero. -/
def nth (g : Generator) (k : ℕ) : Float := (g.skip k).draw.1

theorem exists_value?_nth (g : Generator) (k : ℕ) :
    ∃ d, value? (g.nth k) = some d ∧ 0 ≤ d ∧ d < 1 := by
  obtain ⟨d, hd, hnonneg, hle⟩ := exists_value?_fraction (step (g.skip k).state)
  refine ⟨d, hd, hnonneg, hle.trans_lt ?_⟩
  norm_num

theorem nth_lt_one (g : Generator) (k : ℕ) : g.nth k < 1 := by
  obtain ⟨d, hd, -, hlt⟩ := g.exists_value?_nth k
  exact (lt_iff hd value?_one).2 hlt

/-- A larger probability also exceeds every draw that a smaller one exceeds. -/
theorem nth_lt_of_le {p q : Float} {g : Generator} {k : ℕ} (hk : g.nth k < p) (hpq : p ≤ q) :
    g.nth k < q := by
  obtain ⟨d, hd, -, -⟩ := g.exists_value?_nth k
  exact Binary.lt_of_lt_of_le hd hk hpq

end Generator

namespace TileMap
open Binary

theorem toList_drawCells (p : Float) (n : ℕ) (cells : Array Tile) (g : Generator) :
    (drawCells p n cells g).1.toList =
      cells.toList ++ (List.range n).map fun k => Tile.ofBool (g.nth k < p) := by
  induction n generalizing cells g with
  | zero => exact (List.append_nil _).symm
  | succ n ih =>
    rw [drawCells, ih, List.range_succ_eq_map, List.map_cons, List.map_map, Array.toList_push,
      List.append_assoc]
    rfl

theorem query_random {width height x y : ℕ} (p : Float) (g : Generator) (hx : x < width)
    (hy : y < height) :
    (random width height p g).1.query x y = Tile.ofBool (g.nth (y * width + x) < p) := by
  have hinside : (random width height p g).1.Inside x y := inside_natCast hx hy
  have hindex : y * width + x < width * height :=
    Nat.lt_of_lt_of_eq (index_lt _ hinside) (size_cells _)
  have hcell : (drawCells p (width * height) #[] g).1.toList[y * width + x]? =
      some ((random width height p g).1.query x y) := by
    rw [Array.getElem?_toList]
    exact getElem?_cells hinside
  rw [toList_drawCells, List.nil_append, List.getElem?_map, List.getElem?_range hindex] at hcell
  exact (Option.some_inj.1 hcell).symm

theorem exists_of_mem_random {width height : ℕ} {p : Float} {g : Generator} {t : Tile}
    (ht : t ∈ (random width height p g).1.cells) : ∃ k, t = Tile.ofBool (g.nth k < p) := by
  have hcell : t ∈ (drawCells p (width * height) #[] g).1.toList := Array.mem_toList_iff.2 ht
  rw [toList_drawCells, List.nil_append] at hcell
  obtain ⟨k, -, hk⟩ := List.mem_map.1 hcell
  exact ⟨k, hk.symm⟩

/-- Every draw is less than one, so a grid that is solid with that probability has no empty cell. -/
theorem full_random_of_one_le {width height : ℕ} {p : Float} {g : Generator} (hp : 1 ≤ p) :
    (random width height p g).1.Full := by
  intro t ht
  obtain ⟨k, rfl⟩ := exists_of_mem_random ht
  rw [decide_eq_true (Generator.nth_lt_of_le (g.nth_lt_one k) hp)]
  rfl

theorem full_random (width height : ℕ) (g : Generator) : (random width height 1 g).1.Full :=
  full_random_of_one_le ((le_iff value?_one value?_one).2 le_rfl)

theorem random?_eq (width height : UInt64) (p : Float) (g : Generator) :
    random? width height p g =
      if width.toNat * height.toNat < 2 ^ 63 then some (random width.toNat height.toNat p g)
      else none := by
  rw [random?, Machine.product?]
  by_cases hword : width.toNat * height.toNat < UInt64.size
  · have hproduct : (width * height).toNat = width.toNat * height.toNat := by
      rw [UInt64.toNat_mul, Nat.mod_eq_of_lt hword]
    rw [if_pos hword, Option.bind_eq_bind, Option.bind_some, Machine.reserve?_eq, hproduct,
      Nat.one_mul]
    split <;> rfl
  · have hlong : ¬ width.toNat * height.toNat < 2 ^ 63 := by
      unfold UInt64.size at hword
      omega
    rw [if_neg hword, if_neg hlong]
    rfl

theorem random?_eq_some_iff {width height : UInt64} {p : Float} {g : Generator}
    {drawn : TileMap × Generator} : random? width height p g = some drawn ↔
      width.toNat * height.toNat < 2 ^ 63 ∧ random width.toNat height.toNat p g = drawn := by
  simp [random?_eq]

/-- What a grid and the generator behind it are when each cell took one draw from `g`, row by row.
An answer within the grid is always that of a stored cell, also where coordinates, sides and places
are words. -/
structure RowByRow (width height : ℕ) (p : Float) (g : Generator) (m : TileMap)
    (g' : Generator) : Prop where
  size : m.width = width ∧ m.height = height
  generator : g' = g.skip (width * height)
  outside : ∀ x y : ℤ, x < 0 ∨ y < 0 ∨ x ≥ width ∨ y ≥ height → m.query x y = .solid
  inside : ∀ x y : ℕ, x < width → y < height →
    m.cells[y * width + x]? = some (m.query x y) ∧
    (m.query x y = .solid ↔ g.nth (y * width + x) < p)
  words : ∀ x y : Int64, m.queryWord? x y = some (m.query x.toInt y.toInt)
  solidCount : m.solidCount =
    ((Finset.range width ×ˢ Finset.range height).filter fun c => m.query c.1 c.2 = .solid).card

theorem rowByRow_random {width height : ℕ} (hwidth : width < 2 ^ 64) (hheight : height < 2 ^ 64)
    (hsize : width * height < 2 ^ 63) (p : Float) (g : Generator) :
    RowByRow width height p g (random width height p g).1 (random width height p g).2 where
  size := ⟨rfl, rfl⟩
  generator := random_snd width height p g
  outside x y h := by
    apply query_of_not_inside
    rintro ⟨hx, hxw, hy, hyh⟩
    change x < width at hxw
    change y < height at hyh
    omega
  inside x y hx hy := by
    refine ⟨getElem?_cells (inside_natCast hx hy), ?_⟩
    rw [query_random p g hx hy, ← Tile.isSolid_iff, Tile.isSolid_ofBool, decide_eq_true_eq]
  words := queryWord?_eq hwidth hheight hsize
  solidCount := solidCount_eq_card _

/-- Every grid whose cells can be stored is drawn, cell by cell from the top left corner. -/
theorem rowByRow_of_storable (width height : UInt64) (hsize : width.toNat * height.toNat < 2 ^ 63)
    (p : Float) (g : Generator) : ∃ m g', random? width height p g = some (m, g') ∧
      RowByRow width.toNat height.toNat p g m g' := by
  exact ⟨_, _, random?_eq_some_iff.2 ⟨hsize, rfl⟩,
    rowByRow_random width.toNat_lt height.toNat_lt hsize p g⟩

/-- With one more row the cells could not be stored. -/
theorem rowByRow_of_highest :
    (4294967295 : UInt64).toNat * (2147483648 : UInt64).toNat < 2 ^ 63 ∧
      ∃ m g', random? 4294967295 2147483648 0.18 ⟨123456789⟩ = some (m, g') ∧
        RowByRow 4294967295 2147483648 0.18 ⟨123456789⟩ m g' := by
  have hsize : (4294967295 : UInt64).toNat * (2147483648 : UInt64).toNat < 2 ^ 63 := by decide
  exact ⟨hsize, rowByRow_of_storable 4294967295 2147483648 hsize 0.18 ⟨123456789⟩⟩

/-- A grid of these sides, each of which can be configured, is not drawn. -/
theorem not_rowByRow_of_too_high :
    ¬ ∃ m g', random? 4294967295 4294967295 0.18 ⟨123456789⟩ = some (m, g') ∧
      RowByRow 4294967295 4294967295 0.18 ⟨123456789⟩ m g' := by
  rintro ⟨m, g', hdrawn, -⟩
  exact absurd (random?_eq_some_iff.1 hdrawn).1 (by decide)

end TileMap

end TileWorld
