import Mathlib.Logic.Function.Iterate
import TileWorld.Proofs.Motion.Phases

/-! Where an entity stands after a frame. The two moves of a frame are accepted or refused one after
the other, so the place that is reached was looked at as a whole, unless it is the old one. -/

namespace TileWorld.Entity

/-- No corner of the entity's box lies in a solid tile. -/
def Free (m : TileMap) (e : Entity) : Prop := m.overlapsSolid e.pos.x e.pos.y side side = false

instance (m : TileMap) (e : Entity) : Decidable (e.Free m) :=
  inferInstanceAs (Decidable (_ = false))

variable {m : TileMap} {p : Physics} {e e' : Entity}

theorem Free.congr (h : e.Free m) (hpos : e'.pos = e.pos) : e'.Free m := by
  rwa [Free, hpos]

theorem moveAcross_pos_or_free (m : TileMap) (p : Physics) (e : Entity) :
    (e.moveAcross m p).pos = e.pos ∨ (e.moveAcross m p).Free m := by
  rcases e.moveAcross_cases m p with ⟨_, h⟩ | ⟨hfree, h⟩
  · exact Or.inl (by rw [h])
  · exact Or.inr (by rwa [h])

theorem moveDown_pos_or_free (m : TileMap) (p : Physics) (e : Entity) :
    (e.moveDown m p).pos = e.pos ∨ (e.moveDown m p).Free m := by
  rcases e.moveDown_cases m p with ⟨_, h⟩ | ⟨hfree, h⟩
  · exact Or.inl (by rw [h])
  · exact Or.inr (by rwa [h])

theorem integrate_cases (m : TileMap) (p : Physics) (e : Entity) :
    (e.integrate m p).pos = e.pos ∨ (e.integrate m p).Free m := by
  have hstart : ((e.fall p).turnAtLedge m).pos = e.pos := by rw [turnAtLedge_pos, fall_pos]
  have hend := integrate_pos m p e
  rcases moveDown_pos_or_free m p (((e.fall p).turnAtLedge m).moveAcross m p) with hdown | hdown
  · rcases moveAcross_pos_or_free m p ((e.fall p).turnAtLedge m) with hacross | hacross
    · exact Or.inl (hend.trans (hdown.trans (hacross.trans hstart)))
    · exact Or.inr (hacross.congr (hend.trans hdown))
  · exact Or.inr (hdown.congr hend)

theorem Free.integrate (h : e.Free m) : (e.integrate m p).Free m := by
  rcases integrate_cases m p e with hpos | hfree
  · exact h.congr hpos
  · exact hfree

theorem Free.iterate (h : e.Free m) (n : Nat) : ((Entity.integrate m p)^[n] e).Free m := by
  induction n with
  | zero => exact h
  | succ n ih =>
    rw [Function.iterate_succ_apply']
    exact ih.integrate

theorem iterate_cases (m : TileMap) (p : Physics) (e : Entity) (n : Nat) :
    ((Entity.integrate m p)^[n] e).pos = e.pos ∨ ((Entity.integrate m p)^[n] e).Free m := by
  induction n with
  | zero => exact Or.inl rfl
  | succ n ih =>
    rw [Function.iterate_succ_apply']
    rcases ih with hpos | hfree
    · rcases integrate_cases m p ((Entity.integrate m p)^[n] e) with hstep | hstep
      · exact Or.inl (hstep.trans hpos)
      · exact Or.inr hstep
    · exact Or.inr hfree.integrate

end TileWorld.Entity
