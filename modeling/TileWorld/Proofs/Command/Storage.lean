import TileWorld.Command.Outcome
import TileWorld.Proofs.Simulation.Storage

/-! Commands on a machine. After it has been read and checked, a command is stopped exactly if the
grid or the checksums that it asks for cannot be stored. Otherwise it comes to what it comes to with
as much storage as it takes. -/

namespace TileWorld.Command
open Config

/-- A command that a machine stops, which has been read and checked by then. -/
def Stops (files : String → FileContent) : Command → Prop
  | info => False
  | run o _ => ∃ c, o.resolve files = .ok c ∧ c.validate = .ok () ∧ ¬ c.GridFits
  | verify o runs => runs ≠ 0 ∧ ∃ c, o.resolve files = .ok c ∧ c.validate = .ok () ∧
      (2 ^ 60 ≤ runs ∨ ¬ c.GridFits)

/-- A command that is not stopped comes to what it comes to with as much storage as it takes. -/
theorem stopsIf_result? (files : String → FileContent) (command : Command) :
    StopsIf (Stops files command) (command.result? files) (command.result files) := by
  cases command with
  | info => exact .pure Result.info
  | run o json =>
    refine ((StopsIf.liftExcept (o.resolve files)).bind fun c _ =>
      ((stopsIf_start? c).adapt Failure.invalid).bind fun s _ =>
        .pure (Result.run s.run.summary json)).congr ?_
    simp [Stops]
  | verify o runs =>
    by_cases hruns : runs = 0
    · subst hruns
      exact ⟨fun h => absurd rfl h.1, fun _ => rfl⟩
    · rw [result?, result, if_neg hruns, if_neg hruns]
      refine ((StopsIf.liftExcept (o.resolve files)).bind fun c _ =>
        ((stopsIf_verify? c runs).adapt Failure.invalid).bind fun r _ =>
          .pure (Result.verify c r)).congr ?_
      simp [Stops, hruns]

/-- What a command comes to with as much storage as it takes. -/
def outcome (files : String → FileContent) (t : Timing) (command : Command) : Outcome :=
  match command.result files with
  | .ok r => r.outcome t
  | .error f => f.outcome

section
variable {files : String → FileContent} {command : Command} (t : Timing)

theorem outcomeBounded_of_stops (h : Stops files command) :
    command.outcomeBounded files t = command.stopped files := by
  rw [outcomeBounded, (stopsIf_result? files command).stops h]

theorem outcomeBounded_of_not_stops (h : ¬ Stops files command) :
    command.outcomeBounded files t = outcome files t command := by
  rw [outcomeBounded, (stopsIf_result? files command).goesOn h, outcome]
  cases command.result files <;> rfl

theorem executeBounded_of_read? {args : List String} (hread : read? args = some command) :
    executeBounded files t args = command.outcomeBounded files t := by
  rw [executeBounded, hread]

/-- A machine shows only where it stops a command. -/
theorem executeBounded_eq_execute {args : List String}
    (hstops : ∀ command, read? args = some command → ¬ Stops files command) :
    executeBounded files t args = execute files t args := by
  rw [executeBounded, execute]
  cases hread : read? args with
  | none => rfl
  | some command => exact outcomeBounded_of_not_stops t (hstops command hread)

end

end TileWorld.Command
