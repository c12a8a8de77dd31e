import TileWorld.Entity

/-!
A table of entities kept as five columns, one for each field. The entity at an index is its row,
which exists where all five columns reach that far; the table is aligned when they are equally long.
-/

namespace TileWorld

structure Columns where
  pos : Array Vec
  vel : Array Vec
  grounded : Array Bool
  walker : Array Bool
  life : Array Float
deriving DecidableEq

namespace Columns

def empty : Columns := ⟨#[], #[], #[], #[], #[]⟩

def emptyWithCapacity (n : Nat) : Columns :=
  ⟨.emptyWithCapacity n, .emptyWithCapacity n, .emptyWithCapacity n, .emptyWithCapacity n,
    .emptyWithCapacity n⟩

def size (c : Columns) : Nat := c.pos.size

structure Aligned (c : Columns) : Prop where
  vel : c.vel.size = c.size
  grounded : c.grounded.size = c.size
  walker : c.walker.size = c.size
  life : c.life.size = c.size

@[inline] def row? (c : Columns) (i : Nat) : Option Entity :=
  match c.pos[i]?, c.vel[i]?, c.grounded[i]?, c.walker[i]?, c.life[i]? with
  | some pos, some vel, some grounded, some walker, some life =>
    some { pos, vel, grounded, walker, life }
  | _, _, _, _, _ => none

/-- Overwrites the row at `i`; columns that do not reach `i` keep their values. -/
@[inline] def setRow (c : Columns) (i : Nat) (e : Entity) : Columns :=
  match c with
  | ⟨pos, vel, grounded, walker, life⟩ =>
    ⟨pos.setIfInBounds i e.pos, vel.setIfInBounds i e.vel, grounded.setIfInBounds i e.grounded,
      walker.setIfInBounds i e.walker, life.setIfInBounds i e.life⟩

@[inline] def push (c : Columns) (e : Entity) : Columns :=
  match c with
  | ⟨pos, vel, grounded, walker, life⟩ =>
    ⟨pos.push e.pos, vel.push e.vel, grounded.push e.grounded, walker.push e.walker,
      life.push e.life⟩

/-- Cuts every column to its first `n` values. -/
def cut (c : Columns) (n : Nat) : Columns :=
  match c with
  | ⟨pos, vel, grounded, walker, life⟩ =>
    ⟨pos.shrink n, vel.shrink n, grounded.shrink n, walker.shrink n, life.shrink n⟩

def rows (c : Columns) : List Entity :=
  (List.range c.size).filterMap c.row?

def groundedCount (c : Columns) : Nat :=
  c.grounded.count true

theorem aligned_empty : empty.Aligned := ⟨rfl, rfl, rfl, rfl⟩

theorem aligned_emptyWithCapacity (n : Nat) : (emptyWithCapacity n).Aligned :=
  ⟨rfl, rfl, rfl, rfl⟩

@[simp] theorem size_setRow (c : Columns) (i : Nat) (e : Entity) :
    (c.setRow i e).size = c.size := by
  simp [setRow, size]

@[simp] theorem size_push (c : Columns) (e : Entity) : (c.push e).size = c.size + 1 := by
  simp [push, size]

@[simp] theorem size_cut (c : Columns) (n : Nat) : (c.cut n).size = min n c.size := by
  simp [cut, size]

theorem row?_of_size_le {c : Columns} {i : Nat} (h : c.size ≤ i) : c.row? i = none := by
  have : c.pos[i]? = none := Array.getElem?_eq_none h
  simp [row?, this]

theorem row?_cut (c : Columns) (n i : Nat) :
    (c.cut n).row? i = if i < n then c.row? i else none := by
  have kept {α : Type} (col : Array α) : (col.shrink n)[i]? = if i < n then col[i]? else none := by
    rw [Array.shrink_eq_take, Array.take_eq_extract, Array.getElem?_extract]
    grind
  simp only [row?, Columns.cut, kept]
  by_cases hi : i < n <;> simp only [hi, ↓reduceIte]

namespace Aligned

variable {c : Columns} (h : c.Aligned)
include h

theorem setRow (i : Nat) (e : Entity) : (c.setRow i e).Aligned := by
  have ⟨hv, hg, hw, hl⟩ := h
  constructor <;> simp_all [Columns.setRow, Columns.size]

theorem push (e : Entity) : (c.push e).Aligned := by
  have ⟨hv, hg, hw, hl⟩ := h
  constructor <;> simp_all [Columns.push, Columns.size]

theorem cut (n : Nat) : (c.cut n).Aligned := by
  have ⟨hv, hg, hw, hl⟩ := h
  constructor <;> simp_all [Columns.cut, Columns.size]

theorem exists_row {i : Nat} (hi : i < c.size) : ∃ e, c.row? i = some e := by
  have reaches {α : Type} (col : Array α) (hc : col.size = c.size) : ∃ v, col[i]? = some v :=
    ⟨_, Array.getElem?_eq_getElem (hc ▸ hi)⟩
  obtain ⟨pos, hp⟩ := reaches c.pos rfl
  obtain ⟨vel, hv⟩ := reaches c.vel h.vel
  obtain ⟨grounded, hg⟩ := reaches c.grounded h.grounded
  obtain ⟨walker, hw⟩ := reaches c.walker h.walker
  obtain ⟨life, hl⟩ := reaches c.life h.life
  exact ⟨⟨pos, vel, grounded, walker, life⟩, by simp only [row?, hp, hv, hg, hw, hl]⟩

theorem row?_push (e : Entity) (i : Nat) :
    (c.push e).row? i = if i = c.size then some e else c.row? i := by
  have pushed {α : Type} (col : Array α) (v : α) (hc : col.size = c.size) :
      (col.push v)[i]? = if i = c.size then some v else col[i]? := by
    rw [Array.getElem?_push, hc]
  simp only [row?, Columns.push, pushed _ _ h.vel, pushed _ _ h.grounded, pushed _ _ h.walker,
    pushed _ _ h.life, pushed c.pos _ rfl]
  by_cases hi : i = c.size <;> simp only [hi, ↓reduceIte]

theorem row?_setRow (e : Entity) {i : Nat} (hi : i < c.size) (j : Nat) :
    (c.setRow i e).row? j = if i = j then some e else c.row? j := by
  have written {α : Type} (col : Array α) (v : α) (hc : col.size = c.size) :
      (col.setIfInBounds i v)[j]? = if i = j then some v else col[j]? := by
    rw [Array.getElem?_setIfInBounds, hc]
    simp [hi]
  simp only [row?, Columns.setRow, written _ _ h.vel, written _ _ h.grounded,
    written _ _ h.walker, written _ _ h.life, written c.pos _ rfl]
  by_cases hj : i = j <;> simp only [hj, ↓reduceIte]

end Aligned

end Columns

end TileWorld
