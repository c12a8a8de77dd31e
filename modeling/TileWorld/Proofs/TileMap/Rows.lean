import Mathlib.Data.List.Flatten
import TileWorld.Proofs.Except
import TileWorld.Proofs.TileMap.Random
import TileWorld.TileMap.Rows

/-! Grids and the rows of characters that they are written in. What can be read are the written forms
of the grids that have a cell, and each is read as the grid that it is the form of. -/

namespace TileWorld.TileMap

theorem readCells_eq_ok_iff {y x : ℕ} {row : List Char}
    {ts : { ts : List Tile // ts.length = row.length }} :
    readCells y x row = .ok ts ↔ row = ts.1.map Tile.glyph := by
  induction row generalizing x with
  | nil =>
    obtain ⟨ts, hts⟩ := ts
    obtain rfl := List.length_eq_zero_iff.1 hts
    exact iff_of_true rfl rfl
  | cons c row ih =>
    obtain ⟨_ | ⟨t, ts⟩, hts⟩ := ts
    · cases hts
    rw [readCells, List.map_cons, List.cons.injEq, ← Tile.ofChar?_eq_some_iff]
    split
    · next hc => simp [hc]
    · next t' hc =>
      rw [map_eq_ok_iff, hc, Option.some_inj]
      constructor
      · rintro ⟨rest, hrest, heq⟩
        cases heq
        exact ⟨rfl, ih.1 hrest⟩
      · rintro ⟨rfl, hrow⟩
        exact ⟨⟨ts, Nat.succ.inj hts⟩, ih.2 hrow, rfl⟩

theorem readRow_eq_ok_iff {width y : ℕ} {row : List Char}
    {ts : { ts : List Tile // ts.length = width }} :
    readRow width y row = .ok ts ↔ row = ts.1.map Tile.glyph := by
  unfold readRow
  split
  · next h =>
    subst h
    rw [map_eq_ok_iff]
    simp [readCells_eq_ok_iff]
  · next h =>
    refine iff_of_false nofun fun hrow => h ?_
    rw [hrow, List.length_map, ts.2]

theorem readRows_eq_ok_iff {width y : ℕ} {rows : List (List Char)}
    {ts : { ts : List Tile // ts.length = width * rows.length }} :
    readRows width y rows = .ok ts ↔
      (∀ row ∈ rows, row.length = width) ∧ rows.flatten = ts.1.map Tile.glyph := by
  induction rows generalizing y with
  | nil =>
    obtain ⟨ts, hts⟩ := ts
    obtain rfl := List.length_eq_zero_iff.1 hts
    exact iff_of_true rfl (by simp)
  | cons row rows ih =>
    obtain ⟨ts, hts⟩ := ts
    rw [readRows, bind_eq_ok_iff, List.forall_mem_cons, List.flatten_cons]
    constructor
    · rintro ⟨first, hfirst, hafter⟩
      obtain ⟨rest, hrest, heq⟩ := bind_eq_ok_iff.1 hafter
      cases heq
      obtain ⟨hlengths, hflatten⟩ := ih.1 hrest
      have hrow := readRow_eq_ok_iff.1 hfirst
      refine ⟨⟨?_, hlengths⟩, ?_⟩
      · rw [hrow, List.length_map, first.2]
      · rw [hrow, hflatten, List.map_append]
    · rintro ⟨⟨hrow, hlengths⟩, hflatten⟩
      obtain ⟨first, rest, rfl, hfirst, hrest⟩ := List.map_eq_append_iff.1 hflatten.symm
      have hfirst_length : first.length = width := by rw [← hrow, ← hfirst, List.length_map]
      have hrest_length : rest.length = width * rows.length := by
        rw [List.length_append, List.length_cons, Nat.mul_succ] at hts
        omega
      exact ⟨⟨first, hfirst_length⟩, readRow_eq_ok_iff.2 hfirst.symm, bind_eq_ok_iff.2
        ⟨⟨rest, hrest_length⟩, ih.2 ⟨hlengths, hrest.symm⟩, rfl⟩⟩

theorem ofRows_eq_ok_iff_flatten {rows : List String} {m : TileMap} :
    ofRows rows = .ok m ↔ m.width ≠ 0 ∧ ((rows.map String.toList).headD []).length = m.width ∧
      rows.length = m.height ∧ (∀ row ∈ rows.map String.toList, row.length = m.width) ∧
      (rows.map String.toList).flatten = m.cells.toList.map Tile.glyph := by
  unfold ofRows
  dsimp only
  split
  · next h =>
    simp only [reduceCtorEq, false_iff, not_and]
    exact fun hwidth hfirst => absurd (hfirst.symm.trans h) hwidth
  · next h =>
    simp only [map_eq_ok_iff, readRows_eq_ok_iff]
    constructor
    · rintro ⟨ts, ⟨hlengths, hflatten⟩, rfl⟩
      exact ⟨h, rfl, (List.length_map _).symm, hlengths, hflatten⟩
    · obtain ⟨width, height, cells, hsize⟩ := m
      dsimp only
      rintro ⟨-, rfl, rfl, hlengths, hflatten⟩
      refine ⟨⟨cells.toList, ?_⟩, ⟨hlengths, hflatten⟩, ?_⟩
      · rw [Array.length_toList, hsize, List.length_map]
      · simp

/-- The characters of a grid, row by row. -/
def glyphs (m : TileMap) : List (List Char) :=
  (List.range m.height).map fun (y : ℕ) => (List.range m.width).map fun (x : ℕ) =>
    (m.query x y).glyph

theorem length_toRows (m : TileMap) : m.toRows.length = m.height := by simp [toRows]

theorem map_toList_toRows (m : TileMap) : m.toRows.map String.toList = m.glyphs := by
  simp [toRows, glyphs]

theorem length_of_mem_glyphs {m : TileMap} {row : List Char} (h : row ∈ m.glyphs) :
    row.length = m.width := by
  obtain ⟨y, -, rfl⟩ := List.mem_map.1 h
  simp

theorem flatten_glyphs (m : TileMap) : m.glyphs.flatten = m.cells.toList.map Tile.glyph := by
  rw [glyphs, flatten_rows fun x y : ℕ => (m.query x y).glyph, toList_cells, List.map_map]
  rfl

theorem length_glyphs (m : TileMap) : m.glyphs.length = m.height := by simp [glyphs]

/-- What can be read are the written forms of the grids that have a cell. -/
theorem ofRows_eq_ok_iff {rows : List String} {m : TileMap} :
    ofRows rows = .ok m ↔ rows = m.toRows ∧ 1 ≤ m.width ∧ 1 ≤ m.height := by
  have hrows : rows = m.toRows ↔ rows.map String.toList = m.glyphs := by
    rw [← map_toList_toRows, List.map_inj_right fun _ _ => String.toList_inj.1]
  have hmem (row : List Char) (h : row ∈ m.glyphs) : row.length = m.width := length_of_mem_glyphs h
  rw [ofRows_eq_ok_iff_flatten, ← flatten_glyphs, hrows, ← List.length_map (f := String.toList)]
  generalize rows.map String.toList = rows
  constructor
  · rintro ⟨hwidth, hfirst, hheight, hlengths, hflatten⟩
    refine ⟨List.eq_iff_flatten_eq.2 ⟨hflatten, ?_⟩, Nat.pos_of_ne_zero hwidth, ?_⟩
    · rw [List.map_eq_replicate_iff.2 hlengths, List.map_eq_replicate_iff.2 hmem, hheight,
        length_glyphs]
    · rw [← hheight]
      cases rows with
      | nil => exact absurd hfirst.symm hwidth
      | cons row rows => simp
  · rintro ⟨rfl, hwidth, hheight⟩
    refine ⟨Nat.ne_of_gt hwidth, ?_, m.length_glyphs, hmem, rfl⟩
    rw [← length_glyphs] at hheight
    obtain ⟨row, rows, hrows⟩ := List.exists_cons_of_length_pos hheight
    rw [hrows]
    exact hmem row (hrows ▸ List.mem_cons_self)

/-- The character in column `x` of row `y`. -/
def charAt? (rows : List String) (x y : ℕ) : Option Char := rows[y]?.bind fun row => row.toList[x]?

/-- What a grid has to be when the rows draw it. -/
structure Shows (rows : List String) (m : TileMap) : Prop where
  height : m.height = rows.length
  width : ∃ first, rows.head? = some first ∧ m.width = first.length
  solid_iff : ∀ x y : ℕ, x < m.width → y < m.height →
    (m.query x y = .solid ↔ charAt? rows x y = some '#')
  empty_iff : ∀ x y : ℕ, x < m.width → y < m.height →
    (m.query x y = .empty ↔ charAt? rows x y = some '.')

theorem charAt?_toRows {m : TileMap} {x y : ℕ} (hx : x < m.width) (hy : y < m.height) :
    charAt? m.toRows x y = some (m.query x y).glyph := by
  rw [charAt?, toRows, List.getElem?_map, List.getElem?_range hy, Option.map_some, Option.bind_some,
    String.toList_ofList, List.getElem?_map, List.getElem?_range hx, Option.map_some]

theorem shows_toRows {m : TileMap} (hheight : 1 ≤ m.height) : Shows m.toRows m where
  height := m.length_toRows.symm
  width := by
    rw [← length_toRows] at hheight
    obtain ⟨first, rows, hrows⟩ := List.exists_cons_of_length_pos hheight
    have hmem : first.toList ∈ m.glyphs := by simp [← map_toList_toRows, hrows]
    refine ⟨first, by rw [hrows]; rfl, ?_⟩
    rw [← length_of_mem_glyphs hmem, String.length_toList]
  solid_iff x y hx hy := by
    rw [charAt?_toRows hx hy]
    cases m.query x y <;> decide
  empty_iff x y hx hy := by
    rw [charAt?_toRows hx hy]
    cases m.query x y <;> decide

/-- A grid that is drawn has as many cells as the product of its sides in words. -/
theorem size_cells_random? {width height : UInt64} {p : Float} {g g' : Generator} {m : TileMap}
    (h : random? width height p g = some (m, g')) :
    m.width = width.toNat ∧ m.height = height.toNat ∧ m.cells.size = (width * height).toNat := by
  obtain ⟨hsize, hdrawn⟩ := random?_eq_some_iff.1 h
  have hword : width.toNat * height.toNat < 2 ^ 64 := by omega
  cases hdrawn
  refine ⟨rfl, rfl, ?_⟩
  rw [size_cells, UInt64.toNat_mul, Nat.mod_eq_of_lt hword]

/-- Reading rows and writing them are inverse to one another, for all grids that have a cell. A grid,
with a cell or without, is nothing but its size and its answers. A grid that is drawn has all of its
cells, also when they are counted in words; one that would lack some is not drawn. -/
theorem ofRows_inverse :
    (∀ rows m, ofRows rows = .ok m → Shows rows m ∧ m.toRows = rows) ∧
    (∀ m : TileMap, 1 ≤ m.width → 1 ≤ m.height → ofRows m.toRows = .ok m) ∧
    (∀ m m' : TileMap, m = m' ↔
      m.width = m'.width ∧ m.height = m'.height ∧ ∀ x y, m.query x y = m'.query x y) ∧
    ∀ (width height : UInt64) (p : Float) (g g' : Generator) (m : TileMap),
      random? width height p g = some (m, g') →
        m.width = width.toNat ∧ m.height = height.toNat ∧
        m.cells.size = (width * height).toNat := by
  refine ⟨fun rows m h => ?_, fun m hwidth hheight => ?_, fun m m' => ⟨?_, ?_⟩,
    fun _ _ _ _ _ _ => size_cells_random?⟩
  · obtain ⟨rfl, -, hheight⟩ := ofRows_eq_ok_iff.1 h
    exact ⟨shows_toRows hheight, rfl⟩
  · exact ofRows_eq_ok_iff.2 ⟨rfl, hwidth, hheight⟩
  · rintro rfl
    exact ⟨rfl, rfl, fun _ _ => rfl⟩
  · rintro ⟨hwidth, hheight, hquery⟩
    exact eq_of_query_eq hwidth hheight fun x y _ _ => hquery x y

theorem ofRows_inverse_slope :
    let rows := ["#..", "..#"]
    let m : TileMap := ⟨3, 2, #[.solid, .empty, .empty, .empty, .empty, .solid], rfl⟩
    (ofRows rows = .ok m ∧ Shows rows m ∧ m.toRows = rows) ∧
    (1 ≤ m.width ∧ 1 ≤ m.height ∧ ofRows m.toRows = .ok m) ∧
    ∃ m' g', random? 3 2 0.5 ⟨123456789⟩ = some (m', g') ∧
      m'.cells.size = ((3 : UInt64) * 2).toNat := by
  intro rows m
  have hrows : ofRows rows = .ok m := by decide +kernel
  obtain ⟨hread, hwritten, -, hdrawn⟩ := ofRows_inverse
  obtain ⟨hshows, hsame⟩ := hread rows m hrows
  have hrandom : random? 3 2 0.5 ⟨123456789⟩ = some (random 3 2 0.5 ⟨123456789⟩) :=
    random?_eq_some_iff.2 ⟨by decide, rfl⟩
  exact ⟨⟨hrows, hshows, hsame⟩, ⟨by decide, by decide, hwritten m (by decide) (by decide)⟩,
    _, _, hrandom, (hdrawn 3 2 _ _ _ _ hrandom).2.2⟩

end TileWorld.TileMap
