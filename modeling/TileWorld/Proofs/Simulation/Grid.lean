import TileWorld.Proofs.Entity.Placement
import TileWorld.Proofs.Motion.Free
import TileWorld.Proofs.Simulation.Solitary

/-! Nobody leaves the grid. The tiles around it are not stored, but a move into them is refused like
any other into a solid tile, however far it goes and whatever coordinates it leads to; and whoever
has not moved is where it was placed. -/

namespace TileWorld

namespace Entity

/-- All corners of the entity's box are in tiles of the grid. -/
def InGrid (m : TileMap) (e : Entity) : Prop :=
  ∀ x ∈ [e.pos.x, e.pos.x + side], ∀ y ∈ [e.pos.y, e.pos.y + side],
    m.Inside (tileCoord x) (tileCoord y)

variable {m : TileMap} {p : Physics} {e : Entity}

theorem inGrid_of_onAxis (hx : OnAxis m.width e.pos.x) (hy : OnAxis m.height e.pos.y) :
    e.InGrid m := by
  have hcorner {n : ℕ} {a : Float} (h : OnAxis n a) :
      ∀ x ∈ [a, a + side], 0 ≤ tileCoord x ∧ tileCoord x < n := by
    intro x hx
    have hle := tileCoord_le_add_side a
    rcases List.mem_pair.1 hx with rfl | rfl
    · exact ⟨h.1, h.tileCoord_lt⟩
    · exact ⟨h.1.trans hle, h.2⟩
  intro x hx' y hy'
  exact ⟨(hcorner hx x hx').1, (hcorner hx x hx').2, hcorner hy y hy'⟩

theorem Free.inGrid (h : e.Free m) : e.InGrid m := by
  obtain ⟨hx, hy⟩ := TileMap.onAxis_of_overlapsSolid h
  exact inGrid_of_onAxis hx hy

theorem inGrid_drawn (hw : 2 ≤ m.width) (hh : 2 ≤ m.height) (g : Generator) (k : ℕ) :
    (drawn m g k).InGrid m := by
  apply inGrid_of_onAxis
  · rw [drawn_pos]
    exact onAxis_place _ hw
  · rw [drawn_pos]
    exact onAxis_place _ hh

theorem InGrid.integrate (h : e.InGrid m) : (e.integrate m p).InGrid m := by
  rcases integrate_cases m p e with hpos | hfree
  · rwa [InGrid, hpos]
  · exact hfree.inGrid

theorem InGrid.iterate (h : e.InGrid m) (n : ℕ) : ((Entity.integrate m p)^[n] e).InGrid m := by
  induction n with
  | zero => exact h
  | succ n ih =>
    rw [Function.iterate_succ_apply']
    exact ih.integrate

end Entity

namespace Simulation

/-- In every state that a run reaches every entity is in the grid with all of its corners, provided
that the grid is large enough to hold one in both directions. -/
theorem everyRun_inGrid (c : Config) (hc : c.validate = .ok ()) :
    c.EveryRun fun m _ s => 2 ≤ m.width → 2 ≤ m.height →
      ∀ calls : List Call, ∀ e ∈ (calls.foldl call s).population.toList, e.InGrid m := by
  apply Config.everyRun_of_populate hc
  intro m g hw hh calls e he
  obtain ⟨t, ht⟩ := exists_foldl_call (populate c m g) calls
  rw [ht, (Solitary.follows_runFrames t).population, List.mem_map] at he
  obtain ⟨k, -, rfl⟩ := he
  exact (Entity.inGrid_drawn hw hh g k).iterate _

theorem default_everyRun_inGrid :
    let room : TileMap := ⟨2, 2, #[.empty, .empty, .empty, .empty], rfl⟩
    ({} : Config).validate = .ok () ∧
      (∃ s, start {} = .ok s ∧ 2 ≤ s.map.width ∧ 2 ≤ s.map.height ∧
        ∀ calls : List Call, ∀ e ∈ (calls.foldl call s).population.toList, e.InGrid s.map) ∧
      ∃ s, startOn room {} = .ok s ∧
        ∀ calls : List Call, ∀ e ∈ (calls.foldl call s).population.toList, e.InGrid room := by
  intro room
  obtain ⟨⟨s, hs, hgrid⟩, hon⟩ := everyRun_inGrid {} rfl
  have hmap : s.map = (TileMap.random 128 72 ({} : Config).solidProbability ⟨123456789⟩).1 := by
    cases hs
    rfl
  have hw : 2 ≤ s.map.width := by
    rw [hmap]
    decide
  have hh : 2 ≤ s.map.height := by
    rw [hmap]
    decide
  obtain ⟨s', hs', hgrid'⟩ := hon room
  refine ⟨rfl, ⟨s, hs, hw, hh, ?_⟩, s', hs', hgrid' (by decide) (by decide)⟩
  rw [hmap] at hw hh ⊢
  exact hgrid hw hh

end Simulation

end TileWorld
