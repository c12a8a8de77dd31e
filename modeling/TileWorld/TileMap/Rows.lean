import TileWorld.TileMap.Basic
import TileWorld.Text.Quoted

/-!
Grids written as rows of `#` and `.`. The first row fixes the width; the rows are then checked in
order, each first for its length and then for its characters from the left.
-/

namespace TileWorld.TileMap

inductive RowsError where
  | empty
  | ragged (row expected actual : Nat)
  | badChar (char : Char) (x y : Nat)
deriving DecidableEq

def RowsError.message : RowsError → String
  | empty => "tilemap needs at least one row and one column"
  | ragged row expected actual => s!"row {row} has width {actual}, expected {expected}"
  | badChar c x y => s!"unexpected tile character {Text.quotedChar c} at ({x}, {y})"

/-- The tiles of what is left of row `y` from column `x` on. -/
def readCells (y : Nat) : (x : Nat) → (row : List Char) →
    Except RowsError { ts : List Tile // ts.length = row.length }
  | _, [] => .ok ⟨[], rfl⟩
  | x, c :: row =>
    match Tile.ofChar? c with
    | none => .error (.badChar c x y)
    | some t => (readCells y (x + 1) row).map fun ts => ⟨t :: ts.1, by simp [ts.2]⟩

def readRow (width y : Nat) (row : List Char) :
    Except RowsError { ts : List Tile // ts.length = width } :=
  if h : row.length = width then (readCells y 0 row).map fun ts => ⟨ts.1, ts.2.trans h⟩
  else .error (.ragged y width row.length)

/-- The tiles of the rows from row `y` on, one row after the other. -/
def readRows (width : Nat) : (y : Nat) → (rows : List (List Char)) →
    Except RowsError { ts : List Tile // ts.length = width * rows.length }
  | _, [] => .ok ⟨[], rfl⟩
  | y, row :: rows => do
    let ts ← readRow width y row
    let rest ← readRows width (y + 1) rows
    return ⟨ts.1 ++ rest.1, by simp [ts.2, rest.2, Nat.mul_succ, Nat.add_comm]⟩

def ofRows (rows : List String) : Except RowsError TileMap :=
  let rows := rows.map String.toList
  let width := (rows.headD []).length
  if width = 0 then .error .empty
  else (readRows width 0 rows).map fun ts =>
    ⟨width, rows.length, ts.1.toArray, by simp [ts.2]⟩

end TileWorld.TileMap
