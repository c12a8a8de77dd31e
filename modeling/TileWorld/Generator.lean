/-!
A 32-bit xorshift generator. It is handed along as a value, so the order of the draws is the order
in which it is passed on.
-/

namespace TileWorld

structure Generator where
  state : UInt32
deriving DecidableEq

namespace Generator

def step (x : UInt32) : UInt32 :=
  let x := x ^^^ (x <<< 13)
  let x := x ^^^ (x >>> 17)
  x ^^^ (x <<< 5)

/-- The low 24 bits of a state as a fraction of `2 ^ 24`, which lies in `[0, 1)` and is exact. -/
def fraction (x : UInt32) : Float :=
  (x &&& 0xFFFFFF).toFloat / 16777216.0

def draw (g : Generator) : Float × Generator :=
  let x := step g.state
  (fraction x, ⟨x⟩)

def drawBelow (g : Generator) (p : Float) : Bool × Generator :=
  let (d, g) := g.draw
  (d < p, g)

def skip : Nat → Generator → Generator
  | 0, g => g
  | n + 1, g => skip n ⟨step g.state⟩

theorem draw_snd (g : Generator) : g.draw.2 = ⟨step g.state⟩ := rfl

theorem drawBelow_snd (g : Generator) (p : Float) : (g.drawBelow p).2 = g.draw.2 := rfl

theorem skip_add (m n : Nat) (g : Generator) : skip (m + n) g = skip n (skip m g) := by
  induction m generalizing g with
  | zero => simp [skip]
  | succ m ih => simp [Nat.succ_add, skip, ih]

end Generator

end TileWorld
