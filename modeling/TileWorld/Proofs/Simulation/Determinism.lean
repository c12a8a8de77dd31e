import TileWorld.Proofs.Config.Condition
import TileWorld.Proofs.Simulation.Frames
import TileWorld.Proofs.Simulation.Storage

/-! Runs from one configuration, begun in whatever way and repeated however often. They fail as the
check of the configuration does, and only then. -/

namespace TileWorld

/-- A list has the same bits throughout if it repeats one value, were it a NaN. -/
theorem sameBits_replicate (n : Nat) (x : Float) : sameBits (List.replicate n x) = true := by
  induction n with
  | zero => rfl
  | succ n ih =>
    cases n with
    | zero => rfl
    | succ n =>
      rw [List.replicate_succ, List.replicate_succ, sameBits, beq_self_eq_true, Bool.true_and]
      exact ih

namespace Config
variable {c : Config}

theorem mapM_checksum {s : Simulation} (hs : Simulation.start c = .ok s) (n : Nat) :
    (List.replicate n c).mapM checksum = .ok (List.replicate n s.run.checksum) := by
  have hone : c.checksum = .ok s.run.checksum := by
    rw [checksum, hs]
    rfl
  induction n with
  | zero => rfl
  | succ n ih =>
    rw [List.replicate_succ, List.mapM_cons, hone, ih]
    rfl

/-- Runs from the same configuration end with the same checksum, so repeating one is no surprise. -/
theorem verify_eq {s : Simulation} (hc : c.validate = .ok ()) (hs : Simulation.start c = .ok s)
    (n : Nat) : c.verify n = .ok ⟨n, List.replicate n s.run.checksum, true⟩ := by
  rw [verify, hc, mapM_checksum hs, ← sameBits_replicate n s.run.checksum]
  rfl

/-- What is begun with a configuration fails exactly if the check of the configuration does, with the
same violation. If the check succeeds it comes to a result, provided that there is `room` for it. -/
structure FailsAsChecked {α : Type} (c : Config) (room : Prop)
    (begun : ExceptT Violation Option α) : Prop where
  error_iff : ∀ v, begun.run = some (.error v) ↔ c.validate = .error v
  ok_iff : (∃ a, begun.run = some (.ok a)) ↔ c.validate = .ok () ∧ room
  stops_iff : begun.run = none ↔ c.validate = .ok () ∧ ¬ room

theorem failsAsChecked_of_stopsIf {α : Type} {room : Prop} {x : ExceptT Violation Option α}
    {y : Except Violation α} (h : StopsIf (c.validate = .ok () ∧ ¬ room) x y)
    (herror : ∀ v, c.validate = .error v → y = .error v)
    (hok : c.validate = .ok () → ∃ a, y = .ok a) : FailsAsChecked c room x := by
  cases hc : c.validate with
  | error v =>
    have hx : x.run = some (.error v) := by
      rw [← herror v hc]
      exact h.goesOn fun hP => by cases hc.symm.trans hP.1
    constructor <;> simp [hc, hx]
  | ok _ =>
    obtain ⟨a, ha⟩ := hok hc
    by_cases hroom : room
    · have hx : x.run = some (.ok a) := by
        rw [← ha]
        exact h.goesOn fun hP => hP.2 hroom
      constructor <;> simp [hc, hx, hroom]
    · have hx : x.run = none := h.stops ⟨hc, hroom⟩
      constructor <;> simp [hc, hx, hroom]

/-- There is one notion of validity: all conditions hold, or else the first one that does not is
reported, with the value at fault. Nothing else is reported of what is begun, but it is stopped if
its grid or the checksums of its runs cannot be stored. -/
theorem failsAsChecked_all (c : Config) :
    (c.validate = .ok () ↔ ∀ k : Condition, k.Holds c) ∧
    (∀ v, c.validate = .error v ↔ ∃ k, Condition.FirstViolated c k ∧ v = k.violation c) ∧
    FailsAsChecked c c.GridFits (Simulation.start? c) ∧
    (∀ m, FailsAsChecked c True (liftM (Simulation.startOn m c))) ∧
    ∀ runs, FailsAsChecked c (runs < 2 ^ 60 ∧ (runs = 0 ∨ c.GridFits)) (c.verify? runs) := by
  refine ⟨validate_eq_ok_iff.trans valid_iff, fun _ => validate_eq_error_iff, ?_, fun m => ?_,
    fun runs => ?_⟩
  · exact failsAsChecked_of_stopsIf (stopsIf_start? c) (fun _ => Simulation.start_of_invalid)
      fun hc => ⟨_, Simulation.start_eq hc⟩
  · have hgiven : StopsIf (c.validate = .ok () ∧ ¬ True)
        (liftM (Simulation.startOn m c) : ExceptT Violation Option Simulation)
        (Simulation.startOn m c) := (StopsIf.liftExcept _).congr (by simp)
    refine failsAsChecked_of_stopsIf hgiven (fun v hc => ?_)
      fun hc => ⟨Simulation.populate c m ⟨c.seed⟩, ?_⟩
    · rw [Simulation.startOn, hc]
      rfl
    · rw [Simulation.startOn, hc]
      rfl
  · have hroom : ¬ (runs < 2 ^ 60 ∧ (runs = 0 ∨ c.GridFits)) ↔
        2 ^ 60 ≤ runs ∨ runs ≠ 0 ∧ ¬ c.GridFits := by
      rw [not_and_or, not_or, Nat.not_lt]
    have hverify := (stopsIf_verify? c runs).congr (and_congr_right fun _ => hroom.symm)
    refine failsAsChecked_of_stopsIf hverify (fun v hc => ?_)
      fun hc => ⟨_, verify_eq hc (Simulation.start_eq hc) runs⟩
    rw [verify, hc]
    rfl

/-- The sides are as long as they can be. -/
def vast : Config := { frames := 0, width := 4294967295, height := 4294967295 }

/-- The check does not see that there is no room. -/
theorem vast_stops :
    (vast.validate = .ok () ∧ ¬ (∃ s, (Simulation.start? vast).run = some (.ok s)) ∧
      ¬ ∃ r, (vast.verify? 1).run = some (.ok r)) ∧
    ({} : Config).validate = .ok () ∧
      ¬ ∃ r, (({} : Config).verify? (2 ^ 60)).run = some (.ok r) := by
  have hstart : (Simulation.start? vast).run = none :=
    (stopsIf_start? vast).stops ⟨rfl, by decide⟩
  have hverify : (vast.verify? 1).run = none :=
    (stopsIf_verify? vast 1).stops ⟨rfl, .inr ⟨by decide, by decide⟩⟩
  have hruns : (({} : Config).verify? (2 ^ 60)).run = none :=
    (stopsIf_verify? {} (2 ^ 60)).stops ⟨rfl, .inl (Nat.le_refl _)⟩
  rw [hstart, hverify, hruns]
  exact ⟨⟨rfl, nofun, nofun⟩, rfl, nofun⟩

end Config

end TileWorld
