/-!
The two kinds of cell in a grid, with the character that draws each.
-/

namespace TileWorld

inductive Tile where
  | empty
  | solid
deriving DecidableEq, Inhabited

namespace Tile

def isSolid : Tile → Bool
  | empty => false
  | solid => true

def ofBool (solid : Bool) : Tile :=
  if solid then .solid else .empty

def value : Tile → Nat
  | empty => 0
  | solid => 1

def name : Tile → String
  | empty => "Empty"
  | solid => "Solid"

def glyph : Tile → Char
  | empty => '.'
  | solid => '#'

def ofChar? (c : Char) : Option Tile :=
  if c = '#' then some solid else if c = '.' then some empty else none

@[simp] theorem isSolid_ofBool (b : Bool) : (ofBool b).isSolid = b := by cases b <;> rfl

theorem isSolid_iff (t : Tile) : t.isSolid = true ↔ t = solid := by cases t <;> simp [isSolid]

@[simp] theorem ofChar?_glyph (t : Tile) : ofChar? t.glyph = some t := by cases t <;> rfl

theorem ofChar?_eq_some_iff {c : Char} {t : Tile} : ofChar? c = some t ↔ c = t.glyph := by
  constructor
  · intro h
    unfold ofChar? at h
    split at h
    · next hc => cases h; exact hc
    · split at h
      · next hc => cases h; exact hc
      · cases h
  · rintro rfl
    simp

end Tile

end TileWorld
