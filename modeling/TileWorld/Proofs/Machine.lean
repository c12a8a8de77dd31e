import Mathlib.Algebra.Group.Nat.Defs
import TileWorld.Machine

/-! Programs that a machine may stop. What such a program comes to is said beside one that is never
stopped: the two agree unless a condition holds, and then there is no result. -/

namespace TileWorld

theorem Machine.reserve?_eq (size n : Nat) :
    reserve? size n = if size * n < 2 ^ 63 then some () else none := rfl

/-- On a machine, `y` is worked out by `x`, which is stopped exactly if `P`. -/
structure StopsIf {ε α : Type} (P : Prop) (x : ExceptT ε Option α) (y : Except ε α) : Prop where
  stops : P → x.run = none
  goesOn : ¬ P → x.run = some y

namespace StopsIf
variable {ε α β : Type} {P Q : Prop} {x : ExceptT ε Option α} {y : Except ε α}

theorem run_eq_some_iff (h : StopsIf P x y) {r : Except ε α} : x.run = some r ↔ y = r ∧ ¬ P := by
  by_cases hP : P
  · simp [h.stops hP, hP]
  · simp [h.goesOn hP, hP]

theorem eq_none (h : StopsIf P x y) (hP : P) : x = liftM (none : Option α) := by
  apply ExceptT.ext
  rw [h.stops hP]
  rfl

theorem eq_lift (h : StopsIf P x y) (hP : ¬ P) : x = liftM y := by
  apply ExceptT.ext
  rw [h.goesOn hP]
  rfl

theorem congr (h : StopsIf P x y) (hPQ : P ↔ Q) : StopsIf Q x y :=
  ⟨fun hQ => h.stops (hPQ.2 hQ), fun hQ => h.goesOn (mt hPQ.1 hQ)⟩

theorem pure (a : α) : StopsIf False (Pure.pure a : ExceptT ε Option α) (.ok a) :=
  ⟨False.elim, fun _ => rfl⟩

theorem liftExcept (y : Except ε α) : StopsIf False (liftM y : ExceptT ε Option α) y :=
  ⟨False.elim, fun _ => rfl⟩

theorem liftOption {o : Option α} {a : α} (hnone : P → o = none) (hsome : ¬ P → o = some a) :
    StopsIf P (liftM o : ExceptT ε Option α) (.ok a) where
  stops hP := by
    rw [hnone hP]
    rfl
  goesOn hP := by
    rw [hsome hP]
    rfl

theorem adapt {ε' : Type} (h : StopsIf P x y) (f : ε → ε') :
    StopsIf P (x.adapt f) (y.mapError f) where
  stops hP := congrArg (Option.map (Except.mapError f)) (h.stops hP)
  goesOn hP := congrArg (Option.map (Except.mapError f)) (h.goesOn hP)

/-- One program after another is stopped if the first is, or if it comes to a result with which the
second is stopped. -/
theorem bind {f : α → ExceptT ε Option β} {g : α → Except ε β} {Q : α → Prop}
    (hx : StopsIf P x y) (hf : ∀ a, y = .ok a → StopsIf (Q a) (f a) (g a)) :
    StopsIf (P ∨ ∃ a, y = .ok a ∧ Q a) (x >>= f) (y >>= g) where
  stops := by
    rintro (hP | ⟨a, hy, hQ⟩)
    · rw [ExceptT.run_bind, hx.stops hP]
      rfl
    · by_cases hP : P
      · rw [ExceptT.run_bind, hx.stops hP]
        rfl
      · rw [ExceptT.run_bind, hx.goesOn hP, hy]
        exact (hf a hy).stops hQ
  goesOn := by
    intro h
    obtain ⟨hP, hQ⟩ := not_or.1 h
    rw [ExceptT.run_bind, hx.goesOn hP]
    cases hy : y with
    | error e => rfl
    | ok a => exact (hf a hy).goesOn fun hQa => hQ ⟨a, hy, hQa⟩

theorem check {c : Except ε Unit} {f : Unit → ExceptT ε Option β} {g : Unit → Except ε β}
    (hf : c = .ok () → StopsIf Q (f ()) (g ())) :
    StopsIf (c = .ok () ∧ Q) ((liftM c : ExceptT ε Option Unit) >>= f) (c >>= g) := by
  refine ((liftExcept c).bind fun _ hc => hf hc).congr ?_
  constructor
  · rintro (hfalse | ⟨_, hc, hQ⟩)
    · exact hfalse.elim
    · exact ⟨hc, hQ⟩
  · exact fun h => .inr ⟨(), h⟩

/-- A program that is repeated is stopped the first time if ever. -/
theorem mapM_replicate {f : α → ExceptT ε Option β} {g : α → Except ε β} {a : α}
    (h : StopsIf P (f a) (g a)) (n : Nat) :
    StopsIf (n ≠ 0 ∧ P) ((List.replicate n a).mapM f) ((List.replicate n a).mapM g) := by
  induction n with
  | zero =>
    exact (pure []).congr (by simp)
  | succ n ih =>
    rw [List.replicate_succ, List.mapM_cons, List.mapM_cons]
    refine (h.bind fun b _ => ih.bind fun bs _ => pure (b :: bs)).congr ?_
    constructor
    · rintro (hP | ⟨_, _, ⟨_, hP⟩ | ⟨_, _, hfalse⟩⟩)
      · exact ⟨Nat.succ_ne_zero n, hP⟩
      · exact ⟨Nat.succ_ne_zero n, hP⟩
      · exact hfalse.elim
    · exact fun hP => .inl hP.2

end StopsIf

end TileWorld
