import Mathlib.Data.Finset.Card
import Mathlib.Data.Finset.Prod
import TileWorld.TileMap.Basic

/-! The stored cells of a grid by their coordinates. They are the rows from the top, one after the
other, so a grid is known by its size and by what it answers, and its solid cells can be counted by
coordinates. -/

namespace TileWorld.TileMap

theorem getElem?_cells {m : TileMap} {x y : ℤ} (h : m.Inside x y) :
    m.cells[y.toNat * m.width + x.toNat]? = some (m.query x y) := by
  rw [query, dif_pos h]
  exact Array.getElem?_eq_getElem (m.index_lt h)

theorem inside_natCast {m : TileMap} {x y : ℕ} (hx : x < m.width) (hy : y < m.height) :
    m.Inside x y := by
  omega

theorem mod_and_div_of_lt {w x : ℕ} (y : ℕ) (hx : x < w) :
    (y * w + x) % w = x ∧ (y * w + x) / w = y := by
  refine ⟨Nat.mul_add_mod_of_lt hx, ?_⟩
  rw [Nat.mul_comm, Nat.mul_add_div (Nat.zero_lt_of_lt hx), Nat.div_eq_of_lt hx, Nat.add_zero]

/-- Rows of one length, one after the other, by the place in that order. -/
theorem flatten_rows {α : Type} (f : ℕ → ℕ → α) (w h : ℕ) :
    ((List.range h).map fun y => (List.range w).map fun x => f x y).flatten =
      (List.range (w * h)).map fun i => f (i % w) (i / w) := by
  induction h with
  | zero => simp
  | succ h ih =>
    rw [List.range_succ, List.map_append, List.flatten_append, ih, Nat.mul_succ, List.range_add,
      List.map_append, List.map_map, List.map_singleton, List.flatten_singleton]
    congr 1
    apply List.map_congr_left
    intro x hx
    obtain ⟨hmod, hdiv⟩ := mod_and_div_of_lt h (List.mem_range.1 hx)
    rw [Function.comp_apply, Nat.mul_comm w h, hmod, hdiv]

/-- A cell's place in the row order gives its coordinates back. -/
theorem toList_cells (m : TileMap) : m.cells.toList =
    (List.range (m.width * m.height)).map fun (i : ℕ) =>
      m.query (i % m.width : ℕ) (i / m.width : ℕ) := by
  apply List.ext_getElem?
  intro i
  rw [Array.getElem?_toList, List.getElem?_map]
  rcases Nat.lt_or_ge i (m.width * m.height) with hi | hi
  · have hx : i % m.width < m.width := Nat.mod_lt _ (Nat.pos_of_lt_mul_right hi)
    have hy : i / m.width < m.height := Nat.div_lt_of_lt_mul hi
    have hcell := getElem?_cells (inside_natCast hx hy)
    rw [Int.toNat_natCast, Int.toNat_natCast, Nat.mul_comm, Nat.div_add_mod] at hcell
    rw [hcell, List.getElem?_range hi]
    rfl
  · rw [Array.getElem?_eq_none (by rwa [m.size_cells]), List.getElem?_eq_none (by simpa using hi)]
    rfl

/-- Grids of one size that answer alike wherever they have cells are the same. -/
theorem eq_of_query_eq {m m' : TileMap} (hwidth : m.width = m'.width)
    (hheight : m.height = m'.height)
    (hquery : ∀ x y : ℕ, x < m.width → y < m.height → m.query x y = m'.query x y) : m = m' := by
  have hcells : m.cells.toList = m'.cells.toList := by
    rw [toList_cells, toList_cells, ← hwidth, ← hheight]
    apply List.map_congr_left
    intro i hi
    have hi := List.mem_range.1 hi
    exact hquery _ _ (Nat.mod_lt _ (Nat.pos_of_lt_mul_right hi)) (Nat.div_lt_of_lt_mul hi)
  cases m
  cases m'
  simp only [mk.injEq]
  exact ⟨hwidth, hheight, Array.toList_inj.1 hcells⟩

/-- The stored solid cells are the solid answers within the grid; the wall around it is not among
them. -/
theorem solidCount_eq_card (m : TileMap) : m.solidCount =
    ((Finset.range m.width ×ˢ Finset.range m.height).filter fun c =>
      m.query c.1 c.2 = .solid).card := by
  have hcells : m.solidCount = ((Finset.range (m.width * m.height)).filter fun (i : ℕ) =>
      m.query (i % m.width : ℕ) (i / m.width : ℕ) = .solid).card := by
    rw [solidCount, ← Array.count_toList, toList_cells, List.count, List.countP_map,
      List.countP_eq_length_filter]
    rfl
  rw [hcells]
  refine Finset.card_nbij' (fun i => (i % m.width, i / m.width)) (fun c => c.2 * m.width + c.1)
    ?_ ?_ ?_ ?_
  · intro i hi
    obtain ⟨hi, hsolid⟩ := Finset.mem_filter.1 hi
    have hi := Finset.mem_range.1 hi
    refine Finset.mem_filter.2 ⟨Finset.mem_product.2 ⟨?_, ?_⟩, hsolid⟩
    · exact Finset.mem_range.2 (Nat.mod_lt _ (Nat.pos_of_lt_mul_right hi))
    · exact Finset.mem_range.2 (Nat.div_lt_of_lt_mul hi)
  · rintro ⟨x, y⟩ hc
    obtain ⟨hc, hsolid⟩ := Finset.mem_filter.1 hc
    obtain ⟨hx, hy⟩ := Finset.mem_product.1 hc
    have hx := Finset.mem_range.1 hx
    obtain ⟨hmod, hdiv⟩ := mod_and_div_of_lt y hx
    refine Finset.mem_filter.2 ⟨Finset.mem_range.2 ?_, by rwa [hmod, hdiv]⟩
    have hi := m.index_lt (inside_natCast hx (Finset.mem_range.1 hy))
    rwa [m.size_cells] at hi
  · intro i _
    exact Nat.div_add_mod' i m.width
  · rintro ⟨x, y⟩ hc
    have hx := Finset.mem_range.1 (Finset.mem_product.1 (Finset.mem_filter.1 hc).1).1
    obtain ⟨hmod, hdiv⟩ := mod_and_div_of_lt y hx
    exact Prod.ext hmod hdiv

/-- Where one of two grids of one size is solid wherever the other is, it has at least as
many solid cells. -/
theorem solidCount_le {m m' : TileMap} {width height : ℕ} (hm : m.width = width ∧ m.height = height)
    (hm' : m'.width = width ∧ m'.height = height)
    (h : ∀ x y : ℤ, m.isSolid x y = true → m'.isSolid x y = true) :
    m.solidCount ≤ m'.solidCount := by
  rw [solidCount_eq_card, solidCount_eq_card, hm.1, hm.2, hm'.1, hm'.2]
  refine Finset.card_le_card (Finset.monotone_filter_right _ fun c _ hc => ?_)
  exact (Tile.isSolid_iff _).1 (h c.1 c.2 ((Tile.isSolid_iff _).2 hc))

/-- A grid without an empty cell. -/
def Full (m : TileMap) : Prop := ∀ t ∈ m.cells, t = .solid

instance (m : TileMap) : Decidable m.Full := inferInstanceAs (Decidable (∀ t ∈ m.cells, t = .solid))

theorem Full.query_eq {m : TileMap} (h : m.Full) (x y : ℤ) : m.query x y = .solid := by
  unfold query
  split
  · exact h _ (Array.getElem_mem _)
  · rfl

theorem Full.solidCount_eq {m : TileMap} (h : m.Full) : m.solidCount = m.width * m.height := by
  rw [solidCount, Array.count_eq_size.2 fun t ht => (h t ht).symm, m.size_cells]

/-- A grid without a solid cell, within the wall around it. -/
def Bare (m : TileMap) : Prop := ∀ t ∈ m.cells, t = .empty

theorem Bare.solidCount_eq {m : TileMap} (h : m.Bare) : m.solidCount = 0 := by
  refine Array.count_eq_zero.2 fun hsolid => ?_
  cases h _ hsolid

/-- The tile at coordinates of 64 signed bits, with the size of the grid and the place of a cell
computed in words of 64 bits. It fails where there is no such cell. -/
def queryWord? (m : TileMap) (x y : Int64) : Option Tile :=
  if x < 0 ∨ y < 0 ∨ x ≥ m.width.toUInt64.toInt64 ∨ y ≥ m.height.toUInt64.toInt64 then
    some .solid
  else m.cells[(y.toUInt64 * m.width.toUInt64 + x.toUInt64).toNat]?

theorem toInt_toInt64_toUInt64 {n : ℕ} (hn : n < 2 ^ 64) :
    n.toUInt64.toInt64.toInt = if n < 2 ^ 63 then (n : ℤ) else n - 2 ^ 64 := by
  have hmod : (BitVec.ofNat 64 n).toNat = n := Nat.mod_eq_of_lt hn
  change (BitVec.ofNat 64 n).toInt = _
  rw [BitVec.toInt_eq_toNat_cond, hmod]
  split_ifs <;> omega

theorem toNat_toUInt64_of_nonneg {x : Int64} (hx : 0 ≤ x.toInt) :
    x.toUInt64.toNat = x.toInt.toNat :=
  Int64.toNat_toUInt64_of_le (Int64.le_iff_toInt_le.2 hx)

/-- A coordinate is held against a side in words as it is in numbers, unless the side is so long
that its word is a negative number. -/
theorem outsideWord_iff {m : TileMap} (hwidth : m.width < 2 ^ 64) (hheight : m.height < 2 ^ 64)
    (hsize : m.width * m.height < 2 ^ 63) (x y : Int64) :
    (x < 0 ∨ y < 0 ∨ x ≥ m.width.toUInt64.toInt64 ∨ y ≥ m.height.toUInt64.toInt64) ↔
      ¬ m.Inside x.toInt y.toInt := by
  have hzero : (0 : Int64).toInt = 0 := rfl
  have hw := toInt_toInt64_toUInt64 hwidth
  have hh := toInt_toInt64_toUInt64 hheight
  rw [ge_iff_le, ge_iff_le, Int64.lt_iff_toInt_lt, Int64.lt_iff_toInt_lt, Int64.le_iff_toInt_le,
    Int64.le_iff_toInt_le, hw, hh, hzero]
  have hlong {a b : ℕ} (h : a * b < 2 ^ 63) (ha : ¬ a < 2 ^ 63) : b = 0 := by
    by_contra hb
    have := Nat.le_mul_of_pos_right a (Nat.pos_of_ne_zero hb)
    omega
  have hh' := hlong (a := m.width) (b := m.height) hsize
  have hw' := hlong (a := m.height) (b := m.width) (Nat.mul_comm _ _ ▸ hsize)
  split_ifs <;> omega

theorem queryWord?_eq {m : TileMap} (hwidth : m.width < 2 ^ 64) (hheight : m.height < 2 ^ 64)
    (hsize : m.width * m.height < 2 ^ 63) (x y : Int64) :
    m.queryWord? x y = some (m.query x.toInt y.toInt) := by
  have houtside := outsideWord_iff hwidth hheight hsize x y
  unfold queryWord?
  split
  · next h => rw [query_of_not_inside (houtside.1 h)]
  · next h =>
    have hinside := not_not.1 (mt houtside.2 h)
    have hindex := m.index_lt hinside
    rw [m.size_cells] at hindex
    have hside : m.width.toUInt64.toNat = m.width := Nat.mod_eq_of_lt hwidth
    have hrow : y.toUInt64.toNat * m.width.toUInt64.toNat < 2 ^ 64 := by
      rw [hside, toNat_toUInt64_of_nonneg hinside.2.2.1]
      omega
    rw [← getElem?_cells hinside, UInt64.toNat_add, UInt64.toNat_mul, Nat.mod_eq_of_lt hrow, hside,
      toNat_toUInt64_of_nonneg hinside.1, toNat_toUInt64_of_nonneg hinside.2.2.1, Nat.mod_eq_of_lt]
    omega

end TileWorld.TileMap
