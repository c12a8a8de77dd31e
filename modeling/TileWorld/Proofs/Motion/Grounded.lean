import TileWorld.Proofs.Binary.Truncate
import TileWorld.Proofs.Motion.Phases

/-! When an entity is grounded. The flag is set when a vertical move is blocked on a way down and
cleared when one is made. A move that is blocked on no way down leaves it as it is, but with gravity
at work every way is down for an entity that was stopped in the frame before. -/

namespace TileWorld.Entity
open Binary

section
variable (m : TileMap) (p : Physics) (e : Entity)

/-- The entity when it begins the vertical move of its next frame. -/
def beforeDown : Entity := ((e.fall p).turnAtLedge m).moveAcross m p

/-- In its next frame the entity's vertical move is not made. -/
def BlockedDown : Prop :=
  m.overlapsSolid (e.beforeDown m p).pos.x
    ((e.beforeDown m p).pos.y + (e.beforeDown m p).vel.y * p.dt) side side = true

/-- In its next frame the entity's vertical move is not made, while gravity has it on a way down. -/
def Lands : Prop := e.BlockedDown m p ∧ (e.fall p).vel.y > 0

/-- In its next frame the ground rubs the entity. -/
def Rubbed : Prop := ((e.beforeDown m p).moveDown m p).grounded = true

theorem beforeDown_vel_y : (e.beforeDown m p).vel.y = (e.fall p).vel.y := by
  rw [beforeDown, moveAcross_vel_y, turnAtLedge_vel_y]

theorem beforeDown_grounded : (e.beforeDown m p).grounded = e.grounded := by
  rw [beforeDown, moveAcross_grounded, turnAtLedge_grounded, fall_grounded]

/-- What the vertical move of a frame leaves of the flag and of the speed. -/
theorem moveDown_beforeDown :
    (e.BlockedDown m p ∧ ((e.beforeDown m p).moveDown m p).vel.y = 0 ∧
        ((e.beforeDown m p).moveDown m p).grounded =
          (e.grounded || decide ((e.fall p).vel.y > 0))) ∨
      (¬ e.BlockedDown m p ∧ ((e.beforeDown m p).moveDown m p).grounded = false) := by
  rcases (e.beforeDown m p).moveDown_cases m p with ⟨hblocked, h⟩ | ⟨hfree, h⟩
  · refine Or.inl ⟨hblocked, by rw [h], ?_⟩
    rw [h, ← beforeDown_grounded m p e, ← beforeDown_vel_y m p e]
  · exact Or.inr ⟨Bool.eq_false_iff.1 hfree, by rw [h]⟩

theorem grounded_integrate_iff : (e.integrate m p).grounded = true ↔
    e.BlockedDown m p ∧ (e.grounded = true ∨ (e.fall p).vel.y > 0) := by
  rw [integrate_grounded]
  change ((e.beforeDown m p).moveDown m p).grounded = true ↔ _
  rcases e.moveDown_beforeDown m p with ⟨hblocked, -, hflag⟩ | ⟨hmade, hflag⟩
  · rw [hflag, Bool.or_eq_true, decide_eq_true_eq, and_iff_right hblocked]
  · rw [hflag]
    exact ⟨nofun, fun h => absurd h.1 hmade⟩

theorem rubbed_iff : e.Rubbed m p ↔ (e.integrate m p).grounded = true := by
  rw [integrate_grounded]
  rfl

/-- Whether the ground rubs decides by what the speed across is multiplied. -/
theorem integrate_vel_x :
    (e.Rubbed m p → (e.integrate m p).vel.x =
      (e.beforeDown m p).vel.x * (1 - p.friction * p.dt)) ∧
    (¬ e.Rubbed m p → (e.integrate m p).vel.x = (e.beforeDown m p).vel.x) := by
  have hage : (e.integrate m p).vel = (((e.beforeDown m p).moveDown m p).rub p).vel := rfl
  have hacross := moveDown_vel_x m p (e.beforeDown m p)
  rcases ((e.beforeDown m p).moveDown m p).rub_cases p with ⟨hrubs, h⟩ | ⟨hnot, h⟩
  · exact ⟨fun _ => by rw [hage, h, hacross], fun hnot => absurd hrubs hnot⟩
  · exact ⟨fun hrubs => absurd hrubs (Bool.eq_false_iff.1 hnot), fun _ => by rw [hage, h, hacross]⟩

end

variable {m : TileMap} {p : Physics} {e : Entity}

theorem vel_y_of_grounded (h : (e.integrate m p).grounded = true) :
    (e.integrate m p).vel.y = 0 := by
  rw [integrate_grounded] at h
  rw [integrate_vel_y]
  rcases e.moveDown_beforeDown m p with ⟨-, hstopped, -⟩ | ⟨-, hflag⟩
  · exact hstopped
  · exact absurd (hflag.symm.trans h) Bool.false_ne_true

/-- Gravity alone decides whether an entity that stood still is on a way down. -/
theorem fall_down_iff (h : e.vel.y = 0) : (e.fall p).vel.y > 0 ↔ p.gravity * p.dt > 0 := by
  change 0 < e.vel.y + p.gravity * p.dt ↔ _
  rw [h]
  exact zero_add_pos_iff

/-- Where gravity leads down, an entity that stood still is on a way down in the next frame. -/
theorem grounded_integrate_iff_lands (hgravity : p.gravity * p.dt > 0)
    (hstill : e.grounded = true → e.vel.y = 0) :
    (e.integrate m p).grounded = true ↔ e.Lands m p := by
  rw [grounded_integrate_iff, Lands]
  refine and_congr_right fun _ => ⟨?_, Or.inr⟩
  rintro (hgrounded | hdown)
  · exact (fall_down_iff (hstill hgrounded)).2 hgravity
  · exact hdown

/-- What the flag of an entity says after frame `n` of its life, counted from zero, when `course i`
is the entity after `i` frames. -/
structure FlagTold (m : TileMap) (p : Physics) (course : Nat → Entity) (n : Nat) : Prop where
  still : (course (n + 1)).grounded = true → (course (n + 1)).vel.y = 0
  landed : (course (n + 1)).grounded = true ↔ ∃ i ≤ n, (course i).Lands m p ∧
    ∀ j, i < j → j ≤ n → (course j).BlockedDown m p
  lands : p.gravity * p.dt > 0 →
    ((course (n + 1)).grounded = true ↔ (course n).Lands m p) ∧
    ((course n).Lands m p ↔ (course n).Rubbed m p)
  rubbed : ((course n).Rubbed m p →
      (course (n + 1)).vel.x = ((course n).beforeDown m p).vel.x * (1 - p.friction * p.dt)) ∧
    (¬ (course n).Rubbed m p → (course (n + 1)).vel.x = ((course n).beforeDown m p).vel.x)

section
variable {course : Nat → Entity} (hstart : (course 0).grounded = false)
  (hcourse : ∀ n, course (n + 1) = (course n).integrate m p)
include hstart hcourse

theorem still_course (n : Nat) (h : (course n).grounded = true) : (course n).vel.y = 0 := by
  cases n with
  | zero => exact absurd (hstart.symm.trans h) Bool.false_ne_true
  | succ n =>
    rw [hcourse] at h ⊢
    exact vel_y_of_grounded h

/-- The flag tells of a landing that no vertical move has followed. -/
theorem grounded_course_iff (n : Nat) : (course n).grounded = true ↔
    ∃ i < n, (course i).Lands m p ∧ ∀ j, i < j → j < n → (course j).BlockedDown m p := by
  induction n with
  | zero =>
    rw [hstart]
    exact ⟨nofun, fun ⟨i, hi, _⟩ => absurd hi (Nat.not_lt_zero i)⟩
  | succ n ih =>
    rw [hcourse, grounded_integrate_iff, ih]
    constructor
    · rintro ⟨hblocked, ⟨i, hi, hlands, hsince⟩ | hdown⟩
      · refine ⟨i, Nat.lt_succ_of_lt hi, hlands, fun j hij hj => ?_⟩
        rcases Nat.lt_succ_iff_lt_or_eq.1 hj with hj | rfl
        · exact hsince j hij hj
        · exact hblocked
      · exact ⟨n, Nat.lt_succ_self n, ⟨hblocked, hdown⟩, fun j hnj hj => by omega⟩
    · rintro ⟨i, hi, hlands, hsince⟩
      rcases Nat.lt_succ_iff_lt_or_eq.1 hi with hi | rfl
      · exact ⟨hsince n hi (Nat.lt_succ_self n),
          Or.inl ⟨i, hi, hlands, fun j hij hj => hsince j hij (Nat.lt_succ_of_lt hj)⟩⟩
      · exact ⟨hlands.1, Or.inr hlands.2⟩

theorem flagTold (n : Nat) : FlagTold m p course n where
  still := still_course hstart hcourse (n + 1)
  landed := by
    rw [grounded_course_iff hstart hcourse]
    simp only [Nat.lt_succ_iff]
  lands hgravity := by
    have hlands := grounded_integrate_iff_lands (m := m) hgravity (still_course hstart hcourse n)
    rw [hcourse, rubbed_iff]
    exact ⟨hlands, hlands.symm⟩
  rubbed := by
    rw [hcourse]
    exact integrate_vel_x m p (course n)

end

end TileWorld.Entity
