import Mathlib.Combinatorics.SimpleGraph.Connectivity.Connected
import TileWorld.Proofs.Motion.Free
import TileWorld.Proofs.TileMap.Corners

/-! The rooms of a grid: its empty cells, as far as they are connected side by side. An entity that
never moves by more than one cell in a frame stays in the room where it starts, although nothing
looks at the cells on its way. -/

namespace TileWorld

namespace TileMap

/-- Cells are joined if they are empty and share a side. -/
def rooms (m : TileMap) : SimpleGraph (ℤ × ℤ) where
  Adj c d := m.query c.1 c.2 = .empty ∧ m.query d.1 d.2 = .empty ∧
    (c.1 - d.1).natAbs + (c.2 - d.2).natAbs = 1
  symm := ⟨fun c d ⟨hc, hd, hdist⟩ => ⟨hd, hc, by omega⟩⟩
  loopless := ⟨fun c ⟨_, _, hdist⟩ => by omega⟩

variable {m : TileMap} {c d : ℤ × ℤ}

theorem reachable_of_dist_le (hc : m.query c.1 c.2 = .empty) (hd : m.query d.1 d.2 = .empty)
    (h : (c.1 - d.1).natAbs + (c.2 - d.2).natAbs ≤ 1) : m.rooms.Reachable c d := by
  rcases h.lt_or_eq with hlt | heq
  · have hcd : c = d := Prod.ext (by omega) (by omega)
    rw [hcd]
  · have hadj : m.rooms.Adj c d := ⟨hc, hd, heq⟩
    exact hadj.reachable

end TileMap

namespace Entity

def corner (e : Entity) : ℤ × ℤ := (tileCoord e.pos.x, tileCoord e.pos.y)

/-- The cells that an entity's box lies in. -/
def covered (e : Entity) : Set (ℤ × ℤ) :=
  Set.Icc (tileCoord e.pos.x) (tileCoord (e.pos.x + side)) ×ˢ
    Set.Icc (tileCoord e.pos.y) (tileCoord (e.pos.y + side))

variable {m : TileMap} {p : Physics} {e e' : Entity} {c c' : ℤ × ℤ}

/-- The corners that are looked at are all that a box covers. -/
theorem free_iff : e.Free m ↔ ∀ c ∈ e.covered, m.query c.1 c.2 = .empty := by
  unfold Free
  rw [TileMap.overlapsSolid_eq_false_iff]
  simp only [TileMap.isSolid_eq_false_iff]
  constructor
  · rintro h ⟨i, j⟩ ⟨hi, hj⟩
    exact h i j hi hj
  · intro h i j hi hj
    exact h (i, j) ⟨hi, hj⟩

theorem Free.reachable_corner (h : e.Free m) (hc : c ∈ e.covered) :
    m.rooms.Reachable e.corner c := by
  have hempty := free_iff.1 h
  obtain ⟨⟨hleft, hright⟩, htop, hbottom⟩ := hc
  have hcorner : e.corner ∈ e.covered :=
    ⟨⟨le_rfl, hleft.trans hright⟩, le_rfl, htop.trans hbottom⟩
  have hside : (c.1, tileCoord e.pos.y) ∈ e.covered :=
    ⟨⟨hleft, hright⟩, le_rfl, htop.trans hbottom⟩
  have hx := tileCoord_add_side_le e.pos.x
  have hy := tileCoord_add_side_le e.pos.y
  -- along the top side of the box, and then down from there
  have hacross : m.rooms.Reachable e.corner (c.1, tileCoord e.pos.y) := by
    refine TileMap.reachable_of_dist_le (hempty _ hcorner) (hempty _ hside) ?_
    dsimp only [corner]
    omega
  refine hacross.trans (TileMap.reachable_of_dist_le (hempty _ hside) ?_ ?_)
  · exact hempty c ⟨⟨hleft, hright⟩, htop, hbottom⟩
  · dsimp only
    omega

theorem Free.reachable_of_dist_le (h : e.Free m) (h' : e'.Free m) (hc : c ∈ e.covered)
    (hc' : c' ∈ e'.covered) (hdist : (c.1 - c'.1).natAbs + (c.2 - c'.2).natAbs ≤ 1) :
    m.rooms.Reachable e.corner e'.corner := by
  have hstep := TileMap.reachable_of_dist_le (free_iff.1 h c hc) (free_iff.1 h' c' hc') hdist
  exact (h.reachable_corner hc).trans (hstep.trans (h'.reachable_corner hc').symm)

/-- Intervals without a gap between them have members next to each other. -/
theorem exists_next {a b a' b' : ℤ} (h : a ≤ b) (h' : a' ≤ b') (hle : a' ≤ b + 1)
    (hle' : a ≤ b' + 1) : ∃ i ∈ Set.Icc a b, ∃ i' ∈ Set.Icc a' b', (i - i').natAbs ≤ 1 := by
  refine ⟨max a (min b a'), ⟨?_, ?_⟩, max a' (min b' (max a (min b a'))), ⟨?_, ?_⟩, ?_⟩ <;> omega

theorem exists_next_of_near {x y : Float} (h : Near x y) :
    ∃ i ∈ Set.Icc (tileCoord x) (tileCoord (x + side)),
      ∃ i' ∈ Set.Icc (tileCoord y) (tileCoord (y + side)), (i - i').natAbs ≤ 1 :=
  exists_next (tileCoord_le_add_side x) (tileCoord_le_add_side y) h.tileCoord_le.1 h.tileCoord_le.2

theorem Free.reachable_across (h : e.Free m) (h' : e'.Free m) (hx : Near e.pos.x e'.pos.x)
    (hy : e'.pos.y = e.pos.y) : m.rooms.Reachable e.corner e'.corner := by
  obtain ⟨i, hi, i', hi', hdist⟩ := exists_next_of_near hx
  have hrow := tileCoord_le_add_side e.pos.y
  have hc : (i, tileCoord e.pos.y) ∈ e.covered := ⟨hi, le_rfl, hrow⟩
  have hc' : (i', tileCoord e.pos.y) ∈ e'.covered := ⟨hi', by rw [hy]; exact ⟨le_rfl, hrow⟩⟩
  refine h.reachable_of_dist_le h' hc hc' ?_
  dsimp only
  omega

theorem Free.reachable_down (h : e.Free m) (h' : e'.Free m) (hx : e'.pos.x = e.pos.x)
    (hy : Near e.pos.y e'.pos.y) : m.rooms.Reachable e.corner e'.corner := by
  obtain ⟨j, hj, j', hj', hdist⟩ := exists_next_of_near hy
  have hcolumn := tileCoord_le_add_side e.pos.x
  have hc : (tileCoord e.pos.x, j) ∈ e.covered := ⟨⟨le_rfl, hcolumn⟩, hj⟩
  have hc' : (tileCoord e.pos.x, j') ∈ e'.covered := ⟨by rw [hx]; exact ⟨le_rfl, hcolumn⟩, hj'⟩
  refine h.reachable_of_dist_le h' hc hc' ?_
  dsimp only
  omega

/-- The next frame changes each coordinate by one at most. -/
def Slow (m : TileMap) (p : Physics) (e : Entity) : Prop :=
  Near e.pos.x (e.integrate m p).pos.x ∧ Near e.pos.y (e.integrate m p).pos.y

instance (m : TileMap) (p : Physics) (e : Entity) : Decidable (e.Slow m p) :=
  inferInstanceAs (Decidable (_ ∧ _))

/-- The horizontal move ends in a box that was looked at as a whole, and so does the vertical move
from there, so neither goes further than to a cell that is joined to the old ones. -/
theorem Free.reachable_integrate (h : e.Free m) (hslow : e.Slow m p) :
    m.rooms.Reachable e.corner (e.integrate m p).corner := by
  have hstart : ((e.fall p).turnAtLedge m).pos = e.pos := by rw [turnAtLedge_pos, fall_pos]
  have hmoved : (((e.fall p).turnAtLedge m).moveAcross m p).Free m := by
    rcases moveAcross_pos_or_free m p ((e.fall p).turnAtLedge m) with hpos | hfree
    · exact h.congr (hpos.trans hstart)
    · exact hfree
  have hx : (e.integrate m p).pos.x = (((e.fall p).turnAtLedge m).moveAcross m p).pos.x := by
    rw [integrate_pos, moveDown_pos_x]
  have hy : (((e.fall p).turnAtLedge m).moveAcross m p).pos.y = e.pos.y := by
    rw [moveAcross_pos_y, hstart]
  have hacross := h.reachable_across hmoved (hx ▸ hslow.1) hy
  exact hacross.trans (hmoved.reachable_down h.integrate hx (hy ▸ hslow.2))

theorem Free.reachable_iterate (h : e.Free m) (n : ℕ)
    (hslow : ∀ i < n, ((Entity.integrate m p)^[i] e).Slow m p) :
    m.rooms.Reachable e.corner ((Entity.integrate m p)^[n] e).corner := by
  induction n with
  | zero => exact SimpleGraph.Reachable.refl _
  | succ n ih =>
    have hbefore := ih fun i hi => hslow i (hi.trans n.lt_succ_self)
    have hstep := (h.iterate n).reachable_integrate (hslow n n.lt_succ_self)
    rw [Function.iterate_succ_apply']
    exact hbefore.trans hstep

/-- An entity that starts clear of solid tiles, and then moves by no more than one cell along each
axis in a frame, is always in cells of the room where it started. -/
theorem covered_in_room (h : e.Free m) {n : ℕ}
    (hslow : ∀ i < n, ((Entity.integrate m p)^[i] e).Slow m p) :
    ∀ i ≤ n, ∀ c ∈ ((Entity.integrate m p)^[i] e).covered,
      m.Inside c.1 c.2 ∧ m.query c.1 c.2 = .empty ∧ ∀ d ∈ e.covered, m.rooms.Reachable d c := by
  intro i hi c hc
  have hfree : ((Entity.integrate m p)^[i] e).Free m := h.iterate i
  have hempty := free_iff.1 hfree c hc
  refine ⟨TileMap.inside_of_query hempty, hempty, fun d hd => ?_⟩
  have hcorners := h.reachable_iterate i fun k hk => hslow k (hk.trans_le hi)
  exact (h.reachable_corner hd).symm.trans (hcorners.trans (hfree.reachable_corner hc))

/-- Two rooms with a wall between them, of which the left one turns down at its second cell. -/
def shaft : TileMap :=
  ⟨4, 2, #[.empty, .empty, .solid, .empty, .solid, .empty, .solid, .empty], rfl⟩

/-- It comes to the shaft in its first frame, and bumps into the wall behind it in the second. -/
def faller : Entity := ⟨⟨0.0625, 0.0625⟩, ⟨1, 0⟩, false, false, 300⟩

theorem faller_in_room :
    faller.Free shaft ∧
      (∀ i < 3, ((Entity.integrate shaft ⟨1, 0.5, 0⟩)^[i] faller).Slow shaft ⟨1, 0.5, 0⟩) ∧
      ((Entity.integrate shaft ⟨1, 0.5, 0⟩)^[3] faller).corner = (1, 1) ∧
      shaft.Inside 1 1 ∧ shaft.query 1 1 = .empty ∧ shaft.rooms.Reachable (0, 0) (1, 1) := by
  have hfree : faller.Free shaft := by decide +kernel
  have hslow : ∀ i < 3,
      ((Entity.integrate shaft ⟨1, 0.5, 0⟩)^[i] faller).Slow shaft ⟨1, 0.5, 0⟩ := by
    decide +kernel
  have hend : (1, 1) ∈ ((Entity.integrate shaft ⟨1, 0.5, 0⟩)^[3] faller).covered := by
    refine ⟨⟨?_, ?_⟩, ?_, ?_⟩ <;> decide +kernel
  have hstart : (0, 0) ∈ faller.covered := by
    refine ⟨⟨?_, ?_⟩, ?_, ?_⟩ <;> decide +kernel
  obtain ⟨hinside, hempty, hroom⟩ := covered_in_room hfree hslow 3 le_rfl _ hend
  exact ⟨hfree, hslow, by decide +kernel, hinside, hempty, hroom _ hstart⟩

end Entity

end TileWorld
