import TileWorld.Population.Sweep

/-!
The entities that are alive, in the order in which they were born. An entity's index holds within a
frame only, since the sweep moves later entities forward.
-/

namespace TileWorld

structure Population where
  columns : Columns
  aligned : columns.Aligned
deriving DecidableEq

namespace Population

def empty : Population := ⟨.empty, Columns.aligned_empty⟩

def emptyWithCapacity (n : Nat) : Population :=
  ⟨.emptyWithCapacity n, Columns.aligned_emptyWithCapacity n⟩

def size (p : Population) : Nat := p.columns.size

def isEmpty (p : Population) : Bool := p.size == 0

def get? (p : Population) (i : Nat) : Option Entity := p.columns.row? i

def toList (p : Population) : List Entity := p.columns.rows

def groundedCount (p : Population) : Nat := p.columns.groundedCount

def push (p : Population) (e : Entity) : Population :=
  ⟨p.columns.push e, p.aligned.push e⟩

def spawn (m : TileMap) (p : Population) (g : Generator) : Population × Generator :=
  let (e, g) := Entity.spawn m g
  (p.push e, g)

def spawnMany (m : TileMap) : Nat → Population → Generator → Population × Generator
  | 0, p, g => (p, g)
  | n + 1, p, g =>
    let (p, g) := p.spawn m g
    spawnMany m n p g

/-- Visits every entity once, in order, and keeps the updated ones that the visitor keeps. The
visitor's state is handed from each visit to the next. -/
@[inline] def sweep {σ : Type} (visit : σ → Entity → Visit σ) (state : σ) (p : Population) :
    σ × Population :=
  let s := (Sweep.start p.columns state).run visit p.size
  (s.state, ⟨s.finish, (Sweep.aligned_run visit _ p.aligned).cut _⟩)

end Population

end TileWorld
