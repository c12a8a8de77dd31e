import TileWorld.Proofs.Config.Validity

/-! What is asked of a configuration, one condition after the other. A configuration that violates
several of them is blamed for the first. -/

namespace TileWorld.Config

inductive Condition where
  | width
  | height
  | initialEntities
  | solidProbability
  | timestep
  | gravity
  | friction
deriving DecidableEq

namespace Condition

/-- Every condition, in the order in which they are asked. -/
def all : List Condition :=
  [width, height, initialEntities, solidProbability, timestep, gravity, friction]

/-- A NaN is neither at least nor at most anything, and not finite. -/
def Holds (c : Config) : Condition → Prop
  | width => c.width > 0
  | height => c.height > 0
  | initialEntities => c.initialEntities > 0
  | solidProbability => 0 ≤ c.solidProbability ∧ c.solidProbability ≤ 1
  | timestep => c.dt.isFinite ∧ c.dt > 0
  | gravity => c.gravity.isFinite
  | friction => c.friction.isFinite

instance (c : Config) : (k : Condition) → Decidable (k.Holds c)
  | width => inferInstanceAs (Decidable (c.width > 0))
  | height => inferInstanceAs (Decidable (c.height > 0))
  | initialEntities => inferInstanceAs (Decidable (c.initialEntities > 0))
  | solidProbability => inferInstanceAs (Decidable (_ ∧ _))
  | timestep => inferInstanceAs (Decidable (_ ∧ _))
  | gravity => inferInstanceAs (Decidable (_ = true))
  | friction => inferInstanceAs (Decidable (_ = true))

/-- What is said of a configuration that violates the condition, with the value at fault. -/
def violation (c : Config) : Condition → Violation
  | width => .zeroDimension .width c.width
  | height => .zeroDimension .height c.height
  | initialEntities => .noInitialEntities
  | solidProbability => .solidProbability c.solidProbability
  | timestep => .timestep c.dt
  | gravity => .nonFinite .gravity c.gravity
  | friction => .nonFinite .friction c.friction

/-- The configuration violates the condition and none of those that are asked before it. -/
def FirstViolated (c : Config) (k : Condition) : Prop :=
  ¬ k.Holds c ∧ ∃ before after, all = before ++ k :: after ∧ ∀ k' ∈ before, k'.Holds c

end Condition

variable {c : Config}

theorem valid_iff : c.Valid ↔ ∀ k : Condition, k.Holds c := by
  constructor
  · rintro ⟨hwidth, hheight, hinitial, hsolid, htime, hgravity, hfriction⟩ k
    cases k <;> assumption
  · intro h
    exact ⟨h .width, h .height, h .initialEntities, h .solidProbability, h .timestep, h .gravity,
      h .friction⟩

/-- Asks the conditions one after the other. -/
def ask (c : Config) : List Condition → Except Violation Unit
  | [] => .ok ()
  | k :: ks => if k.Holds c then ask c ks else .error (k.violation c)

theorem ask_cons {k : Condition} {ks : List Condition} {p : Prop} [Decidable p]
    {rest : Except Violation Unit} (h : p ↔ ¬ k.Holds c) (hrest : rest = c.ask ks) :
    (if p then .error (k.violation c) else rest) = c.ask (k :: ks) := by
  rw [ask, hrest, ← ite_not]
  exact if_congr (not_congr h |>.trans not_not) rfl rfl

theorem validate_eq_ask : c.validate = c.ask Condition.all := by
  have hzero (n : UInt32) : n = 0 ↔ ¬ n > 0 := by
    rw [gt_iff_lt, UInt32.pos_iff_ne_zero, not_not]
  have hwidth : c.width = 0 ↔ ¬ Condition.width.Holds c := hzero c.width
  have hheight : c.height = 0 ↔ ¬ Condition.height.Holds c := hzero c.height
  have hinitial : c.initialEntities = 0 ↔ ¬ Condition.initialEntities.Holds c :=
    hzero c.initialEntities
  have htime : ¬ c.dt.isFinite ∨ c.dt ≤ 0 ↔ ¬ Condition.timestep.Holds c := bad_timestep_iff
  have hrefl (k : Condition) : ¬ k.Holds c ↔ ¬ k.Holds c := Iff.rfl
  exact ask_cons hwidth (ask_cons hheight (ask_cons hinitial (ask_cons (hrefl .solidProbability)
    (ask_cons htime (ask_cons (hrefl .gravity) (ask_cons (hrefl .friction) rfl))))))

theorem ask_eq_error_iff {ks : List Condition} {v : Violation} :
    c.ask ks = .error v ↔ ∃ k, (¬ k.Holds c ∧
      ∃ before after, ks = before ++ k :: after ∧ ∀ k' ∈ before, k'.Holds c) ∧
        v = k.violation c := by
  induction ks with
  | nil => simp [ask]
  | cons k ks ih =>
    rw [ask]
    split
    · next h =>
      rw [ih]
      constructor
      · rintro ⟨k', ⟨hfails, before, after, rfl, hbefore⟩, hv⟩
        exact ⟨k', ⟨hfails, k :: before, after, rfl, List.forall_mem_cons.2 ⟨h, hbefore⟩⟩, hv⟩
      · rintro ⟨k', ⟨hfails, before, after, heq, hbefore⟩, hv⟩
        rcases List.cons_eq_append_iff.1 heq with ⟨-, hfirst⟩ | ⟨before, rfl, rfl⟩
        · cases hfirst
          exact absurd h hfails
        · exact ⟨k', ⟨hfails, before, after, rfl, (List.forall_mem_cons.1 hbefore).2⟩, hv⟩
    · next h =>
      constructor
      · rintro ⟨⟩
        exact ⟨k, ⟨h, [], ks, rfl, nofun⟩, rfl⟩
      · rintro ⟨k', ⟨-, before, after, heq, hbefore⟩, rfl⟩
        rcases List.cons_eq_append_iff.1 heq with ⟨-, hfirst⟩ | ⟨before, rfl, -⟩
        · cases hfirst
          rfl
        · exact absurd (hbefore k List.mem_cons_self) h

theorem validate_eq_error_iff {v : Violation} :
    c.validate = .error v ↔ ∃ k, Condition.FirstViolated c k ∧ v = k.violation c := by
  rw [validate_eq_ask]
  exact ask_eq_error_iff

end TileWorld.Config
