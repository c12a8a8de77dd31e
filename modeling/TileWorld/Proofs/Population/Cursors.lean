import TileWorld.Proofs.Population.Operations

/-! Where a sweep stands between two visits. In front of the write cursor are the entities that were
kept, from the read cursor on nothing has been touched, and what lies between the two is stale. The
write cursor does not get ahead, so both stay within the columns. -/

namespace TileWorld

namespace Columns

/-- The five columns hold the fields of `e` at the index `i`. -/
structure Holds (c : Columns) (i : Nat) (e : Entity) : Prop where
  pos : c.pos[i]? = some e.pos
  vel : c.vel[i]? = some e.vel
  grounded : c.grounded[i]? = some e.grounded
  walker : c.walker[i]? = some e.walker
  life : c.life[i]? = some e.life

/-- No column ends before the index `i`. -/
structure Reaches (c : Columns) (i : Nat) : Prop where
  pos : i < c.pos.size
  vel : i < c.vel.size
  grounded : i < c.grounded.size
  walker : i < c.walker.size
  life : i < c.life.size

theorem holds_of_row?_eq {c : Columns} {i : Nat} {e : Entity} (h : c.row? i = some e) :
    c.Holds i e := by
  unfold row? at h
  split at h
  · next hpos hvel hgrounded hwalker hlife =>
    cases h
    exact ⟨hpos, hvel, hgrounded, hwalker, hlife⟩
  · cases h

theorem Aligned.reaches {c : Columns} (h : c.Aligned) {i : Nat} (hi : i < c.size) :
    c.Reaches i where
  pos := hi
  vel := Nat.lt_of_lt_of_eq hi h.vel.symm
  grounded := Nat.lt_of_lt_of_eq hi h.grounded.symm
  walker := Nat.lt_of_lt_of_eq hi h.walker.symm
  life := Nat.lt_of_lt_of_eq hi h.life.symm

end Columns

namespace Sweep

variable {σ : Type}

/-- Where a sweep of the table `c` stands when it has come to the row `r`. -/
structure StandsAt (visit : σ → Entity → Visit σ) (init : σ) (c : Columns) (r : Nat)
    (s : Sweep σ) : Prop where
  read : s.read = r
  write_le : s.write ≤ r
  write : s.write = (visitAll visit init (c.rows.take r)).2.length
  state : s.state = (visitAll visit init (c.rows.take r)).1
  kept : ∀ i < s.write, ∃ e, (visitAll visit init (c.rows.take r)).2[i]? = some e ∧
    s.columns.Holds i e
  unread : ∀ i, r ≤ i → i < c.size → ∃ e, c.Holds i e ∧ s.columns.Holds i e
  aligned : s.columns.Aligned
  size : s.columns.size = c.size

/-- What a visit relies on: the order of the cursors, and that the row to be read and the one to be
written are there. -/
structure Checked (s : Sweep σ) : Prop where
  order : s.write ≤ s.read
  load : s.columns.Reaches s.read
  store : s.columns.Reaches s.write

section
variable {visit : σ → Entity → Visit σ} {init : σ} {c : Columns} {s : Sweep σ}

theorem Progress.standsAt (hc : c.Aligned) (h : Progress visit init c.rows s) :
    StandsAt visit init c s.read s where
  read := rfl
  write_le := h.write_le
  write := h.write
  state := h.state
  kept i hi := by
    have hlength : i < (visitAll visit init (c.rows.take s.read)).2.length := h.write ▸ hi
    have hrow := h.kept i hi
    rw [List.getElem?_eq_getElem hlength] at hrow
    exact ⟨_, List.getElem?_eq_getElem hlength, Columns.holds_of_row?_eq hrow⟩
  unread i hr hi := by
    obtain ⟨e, he⟩ := hc.exists_row hi
    have hrow := h.unread i hr
    rw [Columns.getElem?_rows hc, he] at hrow
    exact ⟨e, Columns.holds_of_row?_eq he, Columns.holds_of_row?_eq hrow⟩
  aligned := h.aligned
  size := h.size.trans (Columns.length_rows hc)

/-- As long as there is a row to be read, the write cursor is within the table as well. -/
theorem StandsAt.checked {r : Nat} (h : StandsAt visit init c r s) (hr : r < c.size) :
    s.Checked where
  order := Nat.le_trans h.write_le (Nat.le_of_eq h.read.symm)
  load := h.aligned.reaches (by rw [h.read, h.size]; exact hr)
  store := h.aligned.reaches (by rw [h.size]; exact Nat.lt_of_le_of_lt h.write_le hr)

theorem StandsAt.size_finish {r : Nat} (h : StandsAt visit init c r s) (hr : r ≤ c.size) :
    s.finish.size = s.write := by
  change (s.columns.cut s.write).size = s.write
  rw [Columns.size_cut, h.size]
  exact Nat.min_eq_left (Nat.le_trans h.write_le hr)

theorem standsAt_run (hc : c.Aligned) {r : Nat} (hr : r ≤ c.size) :
    StandsAt visit init c r ((start c init).run visit r) := by
  have hstart : Progress visit init c.rows (start c init) := progress_start hc
  have hread : (start c init).read + r = r := Nat.zero_add r
  obtain ⟨hprogress, hrun⟩ := hstart.run r (by rwa [hread, Columns.length_rows hc])
  have hstands := hprogress.standsAt hc
  rwa [hrun, hread] at hstands

end

/-- Between any two visits the cursors are in order, the kept entities stand in front of the one and
the entities that are still to be visited behind the other, whatever the visitor does. So no visit
finds a row missing, and in the end all columns are cut to the entities that were kept. -/
theorem sweep_in_place {σ : Type} {c : Columns} (h : c.Aligned) (visit : σ → Entity → Visit σ)
    (init : σ) :
    (∀ r ≤ c.size, StandsAt visit init c r ((start c init).run visit r)) ∧
    (∀ r < c.size, ((start c init).run visit r).Checked) ∧
    (start c init).run? visit c.size = some ((start c init).run visit c.size) ∧
    let s := (start c init).run visit c.size
    let swept := (⟨c, h⟩ : Population).sweep visit init
    swept.1 = s.state ∧ swept.2.columns = s.finish ∧ s.finish.Aligned ∧
      s.finish.size = s.write ∧ s.finish.rows = (visitAll visit init c.rows).2 := by
  have hstands {r : Nat} (hr : r ≤ c.size) :
      StandsAt visit init c r ((start c init).run visit r) := standsAt_run h hr
  refine ⟨fun r hr => hstands hr, fun r hr => (hstands (Nat.le_of_lt hr)).checked hr,
    Population.run?_eq visit init ⟨c, h⟩, rfl, rfl, ?_, ?_, ?_⟩
  · exact ((⟨c, h⟩ : Population).sweep visit init).2.aligned
  · exact (hstands (Nat.le_refl _)).size_finish (Nat.le_refl _)
  · exact Population.toList_sweep visit init ⟨c, h⟩

/-- A visitor that counts its calls, turns an entity around, takes some of its life, and keeps
every other one. -/
def alternating (calls : Nat) (e : Entity) : Visit Nat :=
  ⟨calls + 1, { e with vel := ⟨-e.vel.x, e.vel.y⟩, walker := !e.walker, life := e.life - 2 },
    calls % 2 = 1⟩

/-- When the fourth row is read, one entity has been kept out of order with its row, and the second
row is stale. -/
theorem alternating_in_place :
    let e (x : Float) : Entity := ⟨⟨x, 1⟩, ⟨x, 0⟩, false, true, 9⟩
    let c := (((Columns.empty.push (e 1)).push (e 2)).push (e 3)).push (e 4)
    let s := (start c 0).run alternating 3
    c.Aligned ∧ 3 < c.size ∧ s.write = 1 ∧
      s.columns.row? 0 = some ⟨⟨2, 1⟩, ⟨-2, 0⟩, false, false, 7⟩ ∧
      StandsAt alternating 0 c 3 s ∧ s.Checked ∧
      ((start c 0).run alternating c.size).finish.size = 2 := by
  intro e c s
  have haligned : c.Aligned :=
    (((Columns.aligned_empty.push (e 1)).push (e 2)).push (e 3)).push (e 4)
  obtain ⟨hstands, hchecked, _, _, _, _, hsize, _⟩ := sweep_in_place haligned alternating 0
  refine ⟨haligned, by decide, by decide, by decide +kernel, hstands 3 (by decide),
    hchecked 3 (by decide), hsize.trans ?_⟩
  decide

end Sweep

end TileWorld
