import TileWorld.Proofs.TileMap.Rows

/-! What rows of characters are refused for. Each row is looked at as a whole before the next one,
and in a row the length comes before the characters, so it is the first row with a fault that is
blamed, for its length if that is wrong, and else for its first character that draws no tile. -/

namespace TileWorld

section
variable {α β : Type} {p : α → Prop} {x y : α} {xs : List α} {i : ℕ}

end

namespace TileMap
variable {width y x : ℕ} {row : List Char} {e : RowsError}

def IsGlyph (c : Char) : Prop := c = '#' ∨ c = '.'

/-- The row is a row of a grid of that width. -/
def Draws (width : ℕ) (row : List Char) : Prop := row.length = width ∧ ∀ c ∈ row, IsGlyph c

example : ofRows ["é.", "#x."] = .error (.badChar 'é' 0 0) ∧
    ofRows ["..", "é.#", "x"] = .error (.ragged 1 2 3) := by decide +kernel

end TileMap

end TileWorld
