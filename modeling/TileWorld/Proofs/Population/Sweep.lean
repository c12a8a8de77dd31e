import TileWorld.Population.Basic

/-! A table seen as the list of its rows, and a sweep seen as one pass over that list. What carries
the sweep is that the rows before the write cursor are the kept ones while the rows from the read
cursor on have not been touched. -/

namespace TileWorld

/-- The pass of a sweep on a plain list: every entity is visited once, in order, with the state that
the visit before it left. -/
def visitAll {σ : Type} (visit : σ → Entity → Visit σ) : σ → List Entity → σ × List Entity
  | state, [] => (state, [])
  | state, e :: es =>
    let v := visit state e
    let rest := visitAll visit v.state es
    (rest.1, if v.keep then v.entity :: rest.2 else rest.2)

section visitAll
variable {σ : Type} (visit : σ → Entity → Visit σ) (state : σ)

theorem visitAll_concat (es : List Entity) (e : Entity) :
    visitAll visit state (es ++ [e]) =
      let before := visitAll visit state es
      let v := visit before.1 e
      (v.state, if v.keep then before.2 ++ [v.entity] else before.2) := by
  induction es generalizing state with
  | nil => rfl
  | cons d ds ih =>
    simp only [List.cons_append, visitAll, ih, Prod.mk.injEq, true_and]
    cases (visit state d).keep <;> simp only [Bool.false_eq_true, ↓reduceIte, List.cons_append]
    split <;> rfl

theorem length_visitAll_le (es : List Entity) :
    (visitAll visit state es).2.length ≤ es.length := by
  induction es generalizing state with
  | nil => exact Nat.le_refl _
  | cons e es ih =>
    have h := ih (visit state e).state
    simp only [visitAll, List.length_cons]
    split
    · simpa using h
    · omega

end visitAll

namespace Columns

theorem filterMap_range_eq_ofFn {α : Type} {n : Nat} {f : Nat → Option α} {g : Fin n → α}
    (h : ∀ i : Fin n, f i = some (g i)) : (List.range n).filterMap f = List.ofFn g := by
  induction n with
  | zero => rfl
  | succ n ih =>
    rw [List.range_succ, List.filterMap_append, List.ofFn_succ_last, ih fun i => h i.castSucc]
    have hn : f n = some (g (Fin.last n)) := h (Fin.last n)
    simp [hn]

variable {c : Columns} (h : c.Aligned)
include h

theorem exists_rows_eq_ofFn :
    ∃ row : Fin c.size → Entity,
      (∀ i : Fin c.size, c.row? i = some (row i)) ∧ c.rows = List.ofFn row := by
  have hrow (i : Fin c.size) : ∃ e, c.row? i = some e := h.exists_row i.isLt
  exact ⟨fun i => (hrow i).choose, fun i => (hrow i).choose_spec,
    filterMap_range_eq_ofFn fun i => (hrow i).choose_spec⟩

theorem length_rows : c.rows.length = c.size := by
  obtain ⟨row, _, hrows⟩ := exists_rows_eq_ofFn h
  rw [hrows, List.length_ofFn]

theorem getElem?_rows (i : Nat) : c.rows[i]? = c.row? i := by
  obtain ⟨row, hrow, hrows⟩ := exists_rows_eq_ofFn h
  rw [hrows, List.getElem?_ofFn]
  split
  · next hi => exact (hrow ⟨i, hi⟩).symm
  · next hi => exact (row?_of_size_le (Nat.le_of_not_lt hi)).symm

theorem rows_push (e : Entity) : (c.push e).rows = c.rows ++ [e] := by
  apply List.ext_getElem?
  intro i
  rw [getElem?_rows (h.push e), h.row?_push, List.getElem?_append, length_rows h, getElem?_rows h]
  split
  · next hi => simp [hi]
  · next hi =>
    split
    · rfl
    · have : i - c.size ≠ 0 := by omega
      rw [row?_of_size_le (by omega), List.getElem?_eq_none (by simp; omega)]

theorem map_grounded_rows : c.rows.map (·.grounded) = c.grounded.toList := by
  apply List.ext_getElem?
  intro i
  rw [List.getElem?_map, getElem?_rows h, Array.getElem?_toList]
  by_cases hi : i < c.size
  · obtain ⟨e, he⟩ := h.exists_row hi
    rw [he]
    unfold row? at he
    split at he
    · next hg _ _ =>
      cases he
      exact hg.symm
    · cases he
  · have hg : c.grounded.size ≤ i := by
      rw [h.grounded]
      omega
    rw [row?_of_size_le (by omega), Array.getElem?_eq_none hg]
    rfl

theorem groundedCount_eq : c.groundedCount = c.rows.countP (·.grounded) := by
  have hcount : c.rows.countP (·.grounded) = (c.rows.map (·.grounded)).count true := by
    rw [List.count_eq_countP, List.countP_map]
    exact List.countP_congr fun e _ => by simp
  rw [hcount, map_grounded_rows h, groundedCount, Array.count_toList]

end Columns

namespace Sweep

variable {σ : Type} {visit : σ → Entity → Visit σ} {init : σ} {es : List Entity} {s : Sweep σ}

/-- Where a sweep of the rows `es` stands after `s.read` of them. -/
structure Progress (visit : σ → Entity → Visit σ) (init : σ) (es : List Entity) (s : Sweep σ) :
    Prop where
  aligned : s.columns.Aligned
  size : s.columns.size = es.length
  read_le : s.read ≤ es.length
  state : s.state = (visitAll visit init (es.take s.read)).1
  write : s.write = (visitAll visit init (es.take s.read)).2.length
  kept : ∀ i < s.write, s.columns.row? i = (visitAll visit init (es.take s.read)).2[i]?
  unread : ∀ i, s.read ≤ i → s.columns.row? i = es[i]?

theorem progress_start {c : Columns} (h : c.Aligned) :
    Progress visit init c.rows (start c init) where
  aligned := h
  size := (Columns.length_rows h).symm
  read_le := Nat.zero_le _
  state := rfl
  write := rfl
  kept := by
    intro i hi
    cases hi
  unread := fun i _ => (Columns.getElem?_rows h i).symm

namespace Progress

variable (h : Progress visit init es s)
include h

theorem write_le : s.write ≤ s.read := by
  have hh := length_visitAll_le visit init (es.take s.read)
  rw [h.write]
  simpa using Nat.le_trans hh (List.length_take_le _ _)

/-- The row at the read cursor is the next entity of the list, and a visit to it moves both cursors
to where one more entity has been passed. -/
theorem advance (hr : s.read < es.length) :
    Progress visit init es (s.advance visit) ∧ (s.advance visit).read = s.read + 1 := by
  have hw := h.write_le
  obtain ⟨c, read, write, state⟩ := s
  obtain ⟨ha, hsize, _, hstate, hwrite, hkept, hunread⟩ := h
  dsimp only at *
  have hrow : c.row? read = some es[read] := by
    rw [hunread read (Nat.le_refl _), List.getElem?_eq_getElem hr]
  have htake : es.take (read + 1) = es.take read ++ [es[read]] := by
    rw [List.take_add_one, List.getElem?_eq_getElem hr]
    rfl
  have hstep := visitAll_concat visit init (es.take read) es[read]
  rw [← htake] at hstep
  simp only [← hstate] at hstep
  generalize hv : visit state es[read] = v at hstep
  obtain ⟨state', e, keep⟩ := v
  cases keep with
  | false =>
    have hadv : Sweep.advance visit ⟨c, read, write, state⟩ = ⟨c, read + 1, write, state'⟩ := by
      simp only [Sweep.advance, hrow, hv]
    rw [hadv]
    simp only [Bool.false_eq_true, ↓reduceIte] at hstep
    refine ⟨⟨ha, hsize, hr, ?_, ?_, ?_, ?_⟩, rfl⟩ <;> dsimp only
    · rw [hstep]
    · rw [hstep, hwrite]
    · rw [hstep]
      exact hkept
    · exact fun i hi => hunread i (Nat.le_of_succ_le hi)
  | true =>
    have hadv : Sweep.advance visit ⟨c, read, write, state⟩ =
        ⟨c.setRow write e, read + 1, write + 1, state'⟩ := by
      simp only [Sweep.advance, hrow, hv]
    rw [hadv]
    simp only [↓reduceIte] at hstep
    -- the write cursor is not ahead of the read cursor, so no row still to be read is touched
    have hset (j : Nat) : (c.setRow write e).row? j = if write = j then some e else c.row? j :=
      ha.row?_setRow e (by omega) j
    refine ⟨⟨ha.setRow write e, by simpa using hsize, hr, ?_, ?_, ?_, ?_⟩, rfl⟩ <;> dsimp only
    · rw [hstep]
    · rw [hstep, hwrite, List.length_append, List.length_singleton]
    · intro i hi
      rw [hset, hstep, List.getElem?_append, ← hwrite]
      by_cases he : write = i
      · subst he
        simp
      · have hi' : i < write := by omega
        rw [if_neg he, if_pos hi', hkept i hi']
    · intro i hi
      rw [hset, if_neg (by omega), hunread i (by omega)]

theorem run (n : Nat) (hn : s.read + n ≤ es.length) :
    Progress visit init es (s.run visit n) ∧ (s.run visit n).read = s.read + n := by
  induction n generalizing s with
  | zero => exact ⟨h, rfl⟩
  | succ n ih =>
    obtain ⟨ha, hread⟩ := h.advance (by omega)
    obtain ⟨hrun, hread'⟩ := ih ha (by omega)
    exact ⟨hrun, by rw [Sweep.run, hread', hread]; omega⟩

/-- Once every row has been read, the table cut at the write cursor holds the kept entities. -/
theorem rows_finish (hr : s.read = es.length) :
    s.finish.rows = (visitAll visit init es).2 := by
  have hw := h.write_le
  obtain ⟨c, read, write, state⟩ := s
  obtain ⟨ha, hsize, _, _, hwrite, hkept, _⟩ := h
  dsimp only at *
  rw [hr, List.take_length] at hwrite hkept
  apply List.ext_getElem?
  intro i
  change (c.cut write).rows[i]? = _
  rw [Columns.getElem?_rows (ha.cut write), Columns.row?_cut]
  split
  · next hi => exact hkept i hi
  · next hi => exact (List.getElem?_eq_none (by omega)).symm

end Progress

end Sweep

namespace Population

theorem length_toList (p : Population) : p.toList.length = p.size :=
  Columns.length_rows p.aligned

theorem get?_eq (p : Population) (i : Nat) : p.get? i = p.toList[i]? :=
  (Columns.getElem?_rows p.aligned i).symm

theorem groundedCount_eq (p : Population) : p.groundedCount = p.toList.countP (·.grounded) :=
  Columns.groundedCount_eq p.aligned

@[simp] theorem toList_push (p : Population) (e : Entity) : (p.push e).toList = p.toList ++ [e] :=
  Columns.rows_push p.aligned e

variable {σ : Type} (visit : σ → Entity → Visit σ) (state : σ) (p : Population)

theorem progress_sweep :
    let s := (Sweep.start p.columns state).run visit p.size
    s.Progress visit state p.toList ∧ s.read = p.toList.length := by
  have hlen := p.length_toList
  have hstart : (Sweep.start p.columns state).Progress visit state p.toList :=
    Sweep.progress_start p.aligned
  have h := hstart.run p.size (by rw [← hlen]; exact Nat.le_of_eq (Nat.zero_add _))
  exact ⟨h.1, by rw [h.2, hlen]; exact Nat.zero_add _⟩

theorem sweep_fst : (p.sweep visit state).1 = (visitAll visit state p.toList).1 := by
  obtain ⟨h, hr⟩ := p.progress_sweep visit state
  have hh := h.state
  rw [hr, List.take_length] at hh
  exact hh

theorem toList_sweep : (p.sweep visit state).2.toList = (visitAll visit state p.toList).2 := by
  obtain ⟨h, hr⟩ := p.progress_sweep visit state
  exact h.rows_finish hr

end Population

end TileWorld
