import TileWorld.Motion

/-! What each phase of a frame can do to an entity. -/

namespace TileWorld.Entity

variable (m : TileMap) (p : Physics) (e : Entity)

theorem turnAtLedge_cases :
    (e.walker = true ∧ e.turnAtLedge m = { e with vel := ⟨-e.vel.x, e.vel.y⟩ }) ∨
      e.turnAtLedge m = e := by
  unfold turnAtLedge
  dsimp only
  split
  · next hwalker =>
    -- the tile ahead is not looked into: its coordinates would not reduce
    generalize m.isSolid _ _ = floor
    cases floor
    · exact Or.inl ⟨hwalker, rfl⟩
    · exact Or.inr rfl
  · exact Or.inr rfl

theorem moveAcross_cases :
    (m.overlapsSolid (e.pos.x + e.vel.x * p.dt) e.pos.y side side = true ∧
        e.moveAcross m p = { e with vel := ⟨-e.vel.x * bounce, e.vel.y⟩ }) ∨
      (m.overlapsSolid (e.pos.x + e.vel.x * p.dt) e.pos.y side side = false ∧
        e.moveAcross m p = { e with pos := ⟨e.pos.x + e.vel.x * p.dt, e.pos.y⟩ }) := by
  unfold moveAcross
  dsimp only
  split
  · next h => exact Or.inl ⟨h, rfl⟩
  · next h => exact Or.inr ⟨Bool.eq_false_iff.2 h, rfl⟩

theorem moveDown_cases :
    (m.overlapsSolid e.pos.x (e.pos.y + e.vel.y * p.dt) side side = true ∧
        e.moveDown m p =
          { e with vel := ⟨e.vel.x, 0⟩, grounded := e.grounded || e.vel.y > 0 }) ∨
      (m.overlapsSolid e.pos.x (e.pos.y + e.vel.y * p.dt) side side = false ∧
        e.moveDown m p =
          { e with pos := ⟨e.pos.x, e.pos.y + e.vel.y * p.dt⟩, grounded := false }) := by
  unfold moveDown
  dsimp only
  split
  · next h => exact Or.inl ⟨h, rfl⟩
  · next h => exact Or.inr ⟨Bool.eq_false_iff.2 h, rfl⟩

theorem rub_cases :
    (e.grounded = true ∧
        e.rub p = { e with vel := ⟨e.vel.x * (1 - p.friction * p.dt), e.vel.y⟩ }) ∨
      (e.grounded = false ∧ e.rub p = e) := by
  unfold rub
  split
  · next h => exact Or.inl ⟨h, rfl⟩
  · next h => exact Or.inr ⟨Bool.eq_false_iff.2 h, rfl⟩

section Position

@[simp] theorem fall_pos : (e.fall p).pos = e.pos := rfl

@[simp] theorem turnAtLedge_pos : (e.turnAtLedge m).pos = e.pos := by
  rcases e.turnAtLedge_cases m with ⟨_, h⟩ | h <;> rw [h]

@[simp] theorem rub_pos : (e.rub p).pos = e.pos := by
  rcases e.rub_cases p with ⟨_, h⟩ | ⟨_, h⟩ <;> rw [h]

@[simp] theorem age_pos : e.age.pos = e.pos := rfl

theorem moveAcross_pos_y : (e.moveAcross m p).pos.y = e.pos.y := by
  rcases e.moveAcross_cases m p with ⟨_, h⟩ | ⟨_, h⟩ <;> rw [h]

theorem moveDown_pos_x : (e.moveDown m p).pos.x = e.pos.x := by
  rcases e.moveDown_cases m p with ⟨_, h⟩ | ⟨_, h⟩ <;> rw [h]

theorem integrate_pos : (e.integrate m p).pos =
    ((((e.fall p).turnAtLedge m).moveAcross m p).moveDown m p).pos := by
  rw [integrate, age_pos, rub_pos]

end Position

section Speed

@[simp] theorem turnAtLedge_vel_y : (e.turnAtLedge m).vel.y = e.vel.y := by
  rcases e.turnAtLedge_cases m with ⟨_, h⟩ | h <;> rw [h]

@[simp] theorem moveAcross_vel_y : (e.moveAcross m p).vel.y = e.vel.y := by
  rcases e.moveAcross_cases m p with ⟨_, h⟩ | ⟨_, h⟩ <;> rw [h]

@[simp] theorem moveDown_vel_x : (e.moveDown m p).vel.x = e.vel.x := by
  rcases e.moveDown_cases m p with ⟨_, h⟩ | ⟨_, h⟩ <;> rw [h]

@[simp] theorem rub_vel_y : (e.rub p).vel.y = e.vel.y := by
  rcases e.rub_cases p with ⟨_, h⟩ | ⟨_, h⟩ <;> rw [h]

@[simp] theorem age_vel : e.age.vel = e.vel := rfl

theorem integrate_vel_y : (e.integrate m p).vel.y =
    ((((e.fall p).turnAtLedge m).moveAcross m p).moveDown m p).vel.y := by
  rw [integrate, age_vel, rub_vel_y]

end Speed

section Flag

@[simp] theorem fall_grounded : (e.fall p).grounded = e.grounded := rfl

@[simp] theorem turnAtLedge_grounded : (e.turnAtLedge m).grounded = e.grounded := by
  rcases e.turnAtLedge_cases m with ⟨_, h⟩ | h <;> rw [h]

@[simp] theorem moveAcross_grounded : (e.moveAcross m p).grounded = e.grounded := by
  rcases e.moveAcross_cases m p with ⟨_, h⟩ | ⟨_, h⟩ <;> rw [h]

@[simp] theorem rub_grounded : (e.rub p).grounded = e.grounded := by
  rcases e.rub_cases p with ⟨_, h⟩ | ⟨_, h⟩ <;> rw [h]

theorem integrate_grounded : (e.integrate m p).grounded =
    ((((e.fall p).turnAtLedge m).moveAcross m p).moveDown m p).grounded := by
  have hage (e : Entity) : e.age.grounded = e.grounded := rfl
  rw [integrate, hage, rub_grounded]

end Flag

section Life

@[simp] theorem fall_life : (e.fall p).life = e.life := rfl

@[simp] theorem turnAtLedge_life : (e.turnAtLedge m).life = e.life := by
  rcases e.turnAtLedge_cases m with ⟨_, h⟩ | h <;> rw [h]

@[simp] theorem moveAcross_life : (e.moveAcross m p).life = e.life := by
  rcases e.moveAcross_cases m p with ⟨_, h⟩ | ⟨_, h⟩ <;> rw [h]

@[simp] theorem moveDown_life : (e.moveDown m p).life = e.life := by
  rcases e.moveDown_cases m p with ⟨_, h⟩ | ⟨_, h⟩ <;> rw [h]

@[simp] theorem rub_life : (e.rub p).life = e.life := by
  rcases e.rub_cases p with ⟨_, h⟩ | ⟨_, h⟩ <;> rw [h]

/-- A frame takes one from an entity's life, and nothing else in it touches the life. -/
theorem integrate_life : (e.integrate m p).life = e.life - 1 := by
  have hage (e : Entity) : e.age.life = e.life - 1 := rfl
  rw [integrate, hage, rub_life, moveDown_life, moveAcross_life, turnAtLedge_life, fall_life]

end Life

section Walker

@[simp] theorem fall_walker : (e.fall p).walker = e.walker := rfl

@[simp] theorem turnAtLedge_walker : (e.turnAtLedge m).walker = e.walker := by
  rcases e.turnAtLedge_cases m with ⟨_, h⟩ | h <;> rw [h]

@[simp] theorem moveAcross_walker : (e.moveAcross m p).walker = e.walker := by
  rcases e.moveAcross_cases m p with ⟨_, h⟩ | ⟨_, h⟩ <;> rw [h]

@[simp] theorem moveDown_walker : (e.moveDown m p).walker = e.walker := by
  rcases e.moveDown_cases m p with ⟨_, h⟩ | ⟨_, h⟩ <;> rw [h]

@[simp] theorem rub_walker : (e.rub p).walker = e.walker := by
  rcases e.rub_cases p with ⟨_, h⟩ | ⟨_, h⟩ <;> rw [h]

theorem integrate_walker : (e.integrate m p).walker = e.walker := by
  have hage (e : Entity) : e.age.walker = e.walker := rfl
  rw [integrate, hage, rub_walker, moveDown_walker, moveAcross_walker, turnAtLedge_walker,
    fall_walker]

end Walker

end TileWorld.Entity
