import TileWorld.Population.Columns

/-!
One pass over the rows of a table that updates each entity and keeps or drops it. Rows are read in
index order and the kept ones are written back behind a second cursor, which never gets ahead of
the first, so a row is overwritten only after it has been read.
-/

namespace TileWorld

/-- What a visit to one entity leaves: the visitor's own state, the updated entity, and whether it
is kept. -/
structure Visit (σ : Type) where
  state : σ
  entity : Entity
  keep : Bool

structure Sweep (σ : Type) where
  columns : Columns
  /-- The next row to visit. -/
  read : Nat
  /-- Where the next kept row goes. -/
  write : Nat
  state : σ

namespace Sweep

variable {σ : Type}

def start (c : Columns) (state : σ) : Sweep σ := ⟨c, 0, 0, state⟩

/-- Visits one row. Past the end of the table nothing happens. -/
@[inline] def advance (visit : σ → Entity → Visit σ) (s : Sweep σ) : Sweep σ :=
  match s with
  | ⟨c, read, write, state⟩ =>
    match c.row? read with
    | none => ⟨c, read, write, state⟩
    | some e =>
      match visit state e with
      | ⟨state, e, true⟩ => ⟨c.setRow write e, read + 1, write + 1, state⟩
      | ⟨state, _, false⟩ => ⟨c, read + 1, write, state⟩

@[specialize] def run (visit : σ → Entity → Visit σ) : Nat → Sweep σ → Sweep σ
  | 0, s => s
  | n + 1, s => run visit n (s.advance visit)

/-- The table cut to the kept rows. -/
def finish (s : Sweep σ) : Columns :=
  match s with
  | ⟨c, _, write, _⟩ => c.cut write

theorem aligned_advance (visit : σ → Entity → Visit σ) {s : Sweep σ} (h : s.columns.Aligned) :
    (s.advance visit).columns.Aligned := by
  obtain ⟨c, read, write, state⟩ := s
  unfold advance
  dsimp only
  split
  · exact h
  · split
    · exact h.setRow _ _
    · exact h

theorem aligned_run (visit : σ → Entity → Visit σ) (n : Nat) {s : Sweep σ}
    (h : s.columns.Aligned) : (s.run visit n).columns.Aligned := by
  induction n generalizing s with
  | zero => exact h
  | succ n ih => exact ih (aligned_advance visit h)

end Sweep

end TileWorld
