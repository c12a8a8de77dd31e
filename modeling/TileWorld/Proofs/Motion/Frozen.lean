import TileWorld.Proofs.Motion.Finite
import TileWorld.Proofs.Motion.Free
import TileWorld.Proofs.Motion.Grounded
import TileWorld.Proofs.TileMap.Cells

/-! Motion on a grid without an empty cell. No place is free there, so neither move of a frame is
ever made: an entity stays where it is, its fall ends in every frame, and what is left to happen is
that it gets grounded. -/

namespace TileWorld

theorem TileMap.Full.overlapsSolid {m : TileMap} (h : m.Full) (x y width height : Float) :
    m.overlapsSolid x y width height = true := by
  simp only [TileMap.overlapsSolid, isSolid, h.query_eq, Tile.isSolid, Bool.or_self]

namespace Entity
open Binary

section
variable {m : TileMap} (h : m.Full) (p : Physics) (e : Entity)
include h

theorem integrate_pos_of_full : (e.integrate m p).pos = e.pos := by
  apply (integrate_cases m p e).resolve_right
  simp [Free, h.overlapsSolid]

theorem blockedDown_of_full : e.BlockedDown m p := h.overlapsSolid _ _ _ _

theorem integrate_vel_y_of_full : (e.integrate m p).vel.y = 0 := by
  rw [integrate_vel_y]
  rcases e.moveDown_beforeDown m p with ⟨-, hstopped, -⟩ | ⟨hmade, -⟩
  · exact hstopped
  · exact absurd (blockedDown_of_full h p e) hmade

/-- The flag is never cleared, because that takes a move. -/
theorem grounded_integrate_iff_of_full :
    (e.integrate m p).grounded = true ↔ e.grounded = true ∨ (e.fall p).vel.y > 0 := by
  rw [grounded_integrate_iff, and_iff_right (blockedDown_of_full h p e)]

end

/-- What an entity is after frame `n` of its life, counted from zero, if no move was ever made. From
the second frame on it begins each at rest, so these frames are all alike. -/
structure Frozen (p : Physics) (course : ℕ → Entity) (n : ℕ) : Prop where
  pos : (course (n + 1)).pos = (course 0).pos
  still : (course (n + 1)).vel.y = 0
  gain : ∀ j < n, (((course (j + 1)).fall p).vel.y == p.gravity * p.dt) = true
  grounded : (course (n + 1)).grounded = true ↔ ∃ j ≤ n, ((course j).fall p).vel.y > 0
  decided : (course (n + 1)).grounded = true ↔
    (course 0).vel.y + p.gravity * p.dt > 0 ∨ 1 ≤ n ∧ p.gravity * p.dt > 0
  second : p.gravity * p.dt > 0 → 1 ≤ n → (course (n + 1)).grounded = true

section
variable {m : TileMap} {p : Physics} {course : ℕ → Entity} (h : m.Full)
  (hcourse : ∀ n, course (n + 1) = (course n).integrate m p)
include h hcourse

theorem pos_course_of_full (n : ℕ) : (course n).pos = (course 0).pos := by
  induction n with
  | zero => rfl
  | succ n ih => rw [hcourse, integrate_pos_of_full h, ih]

theorem vel_y_course_of_full (n : ℕ) : (course (n + 1)).vel.y = 0 := by
  rw [hcourse, integrate_vel_y_of_full h]

variable (hstart : (course 0).grounded = false)
include hstart

theorem grounded_course_iff_of_full (n : ℕ) :
    (course n).grounded = true ↔ ∃ j < n, ((course j).fall p).vel.y > 0 := by
  induction n with
  | zero => simp [hstart]
  | succ n ih => rw [hcourse, grounded_integrate_iff_of_full h, ih, Nat.exists_lt_succ_right]

theorem frozen (hp : p.Sound) (n : ℕ) : Frozen p course n := by
  have hgrounded := grounded_course_iff_of_full h hcourse hstart (n + 1)
  have hdecided : (course (n + 1)).grounded = true ↔
      (course 0).vel.y + p.gravity * p.dt > 0 ∨ 1 ≤ n ∧ p.gravity * p.dt > 0 := by
    rw [hgrounded, Nat.exists_lt_succ_left]
    apply or_congr Iff.rfl
    simp only [fall_down_iff (vel_y_course_of_full h hcourse _), exists_and_right]
    exact and_congr_left fun _ => ⟨fun ⟨j, hj⟩ => Nat.zero_lt_of_lt hj, fun hn => ⟨0, hn⟩⟩
  exact {
    pos := pos_course_of_full h hcourse (n + 1)
    still := vel_y_course_of_full h hcourse n
    gain := by
      intro j _
      change (course (j + 1)).vel.y + p.gravity * p.dt == p.gravity * p.dt
      rw [vel_y_course_of_full h hcourse j]
      exact zero_add_beq hp.isNaN_gain
    grounded := by simpa only [Nat.lt_succ_iff] using hgrounded
    decided := hdecided
    second := fun hgain hn => hdecided.2 (Or.inr ⟨hn, hgain⟩) }

end

end Entity

end TileWorld
