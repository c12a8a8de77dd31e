import TileWorld.Command.Outcome
import TileWorld.Proofs.Command.Run
import TileWorld.Proofs.Simulation.Determinism

/-! A command as it goes: it may fail or be stopped at any point, and what it has printed by then
stays printed. What it comes to in the end is what is worked out beforehand. It does not begin to
print before everything that can fail has been done, but a comparison can still be stopped. -/

namespace TileWorld

namespace Command
open Config

/-- The configuration in use, after it has been checked. -/
def Overrides.checked (files : String → FileContent) (o : Overrides) : Except Failure Config := do
  let c ← o.resolve files
  c.validate.mapError .invalid
  return c

/-- Why a command does not go on. -/
inductive Halt where
  | failed (f : Failure)
  | stopped

/-- What is done in order, with the lines that are printed in the meantime. -/
abbrev Printing := ExceptT Halt (StateM (List String))

namespace Printing

def say (line : String) : Printing Unit := modify (· ++ [line])

def attempt {α : Type} (x : ExceptT Failure Option α) : Printing α :=
  match x.run with
  | none => throw .stopped
  | some (.error f) => throw (.failed f)
  | some (.ok a) => return a

/-- What a command comes to that goes on with `p` after it has printed some lines. -/
def outcomeAfter (printed : List String) (p : Printing Unit) : Outcome :=
  match p.run.run printed with
  | (.ok (), printed) => ⟨0, lines printed, none⟩
  | (.error (.failed f), printed) => ⟨1, lines printed, some f.text⟩
  | (.error .stopped, printed) => ⟨101, lines printed, none⟩

theorem outcomeAfter_ok {α : Type} (printed : List String) (a : α) (p : α → Printing Unit) :
    outcomeAfter printed
      (attempt (liftM (Except.ok a : Except Failure α) : ExceptT Failure Option α) >>= p) =
      outcomeAfter printed (p a) := rfl

theorem outcomeAfter_forM (printed ls : List String) (p : Printing Unit) :
    outcomeAfter printed (do ls.forM say; p) = outcomeAfter (printed ++ ls) p := by
  induction ls generalizing printed with
  | nil => rw [List.append_nil]; rfl
  | cons l ls ih =>
    have hfirst : outcomeAfter printed (do (l :: ls).forM say; p) =
        outcomeAfter (printed ++ [l]) (do ls.forM say; p) := rfl
    rw [hfirst, ih, List.append_assoc]
    rfl

end Printing

open Printing

def runLines (checksums : List Float) : List String :=
  checksums.mapIdx fun i x => s!"Run {i + 1}: {checksumText x}"

/-- The command step by step. The heading of a comparison is printed before the runs are made. -/
def perform (files : String → FileContent) (t : Timing) : Command → Printing Unit
  | info => infoLines.forM say
  | run o json => do
    let c ← attempt (liftM (o.checked files))
    let s ← attempt ((Simulation.start? c).adapt Failure.invalid)
    let summary := s.run.summary
    say (if json then (summary.toJson t).pretty else summary.checksumText)
  | verify o runs => do
    if runs = 0 then throw (.failed .noRuns)
    let c ← attempt (liftM (o.checked files))
    say (heading c runs)
    let r ← attempt ((c.verify? runs).adapt Failure.invalid)
    (runLines r.checksums).forM say
    if r.isDeterministic then say "Match: OK"
    else do
      say "Match: MISMATCH"
      throw (.failed (.diverged runs))

section
variable {files : String → FileContent} {o : Overrides} {c : Config}

theorem checked_of_resolve_error {f : Failure} (h : o.resolve files = .error f) :
    o.checked files = .error f := by
  rw [Overrides.checked, h]
  rfl

theorem checked_of_valid (h : o.resolve files = .ok c) (hc : c.validate = .ok ()) :
    o.checked files = .ok c := by
  rw [Overrides.checked, h]
  change (c.validate.mapError Failure.invalid).bind _ = _
  rw [hc]
  rfl

theorem checked_of_invalid {v : Violation} (h : o.resolve files = .ok c)
    (hc : c.validate = .error v) : o.checked files = .error (.invalid v) := by
  rw [Overrides.checked, h]
  change (c.validate.mapError Failure.invalid).bind _ = _
  rw [hc]
  rfl

theorem result_run_error {f : Failure} (json : Bool) (h : o.resolve files = .error f) :
    (run o json).result files = .error f := by
  change (o.resolve files).bind _ = _
  rw [h]
  rfl

theorem result_verify_error {f : Failure} {runs : Nat} (hruns : runs ≠ 0)
    (h : o.resolve files = .error f) : (verify o runs).result files = .error f := by
  rw [result, if_neg hruns]
  change (o.resolve files).bind _ = _
  rw [h]
  rfl

theorem result_verify {runs : Nat} (hruns : runs ≠ 0) (h : o.resolve files = .ok c) :
    (verify o runs).result files =
      ((c.verify runs).mapError Failure.invalid).map (Result.verify c) := by
  rw [result, if_neg hruns]
  change (o.resolve files).bind (fun c =>
    ((c.verify runs).mapError Failure.invalid).bind fun r => .ok (Result.verify c r)) = _
  rw [h]
  change ((c.verify runs).mapError Failure.invalid).bind _ = _
  cases c.verify runs <;> rfl

end

theorem outcomeAfter_perform_of_stops {files : String → FileContent} (t : Timing)
    {command : Command} (h : Stops files command) :
    outcomeAfter [] (perform files t command) = command.stopped files := by
  cases command with
  | info => exact h.elim
  | run o json =>
    obtain ⟨c, hresolve, hc, hgrid⟩ := h
    rw [perform, checked_of_valid hresolve hc, outcomeAfter_ok,
      (stopsIf_start? c).eq_none ⟨hc, hgrid⟩]
    rfl
  | verify o runs =>
    obtain ⟨hruns, c, hresolve, hc, hroom⟩ := h
    rw [perform, if_neg hruns, checked_of_valid hresolve hc, outcomeAfter_ok,
      (stopsIf_verify? c runs).eq_none ⟨hc, hroom.imp_right fun hgrid => ⟨hruns, hgrid⟩⟩,
      stopped, announced, hresolve]
    rfl

theorem outcomeAfter_perform_run (files : String → FileContent) (t : Timing) (o : Overrides)
    (json : Bool) (h : ¬ Stops files (run o json)) :
    outcomeAfter [] (perform files t (run o json)) = outcome files t (run o json) := by
  rw [perform, outcome]
  cases hresolve : o.resolve files with
  | error f =>
    rw [checked_of_resolve_error hresolve, result_run_error json hresolve]
    rfl
  | ok c =>
    rw [result_run json hresolve]
    cases hc : c.validate with
    | error v =>
      rw [checked_of_invalid hresolve hc, Simulation.start_of_invalid hc]
      rfl
    | ok _ =>
      have hgrid : ¬ (c.validate = .ok () ∧ ¬ c.GridFits) :=
        fun hP => h ⟨c, hresolve, hP⟩
      obtain ⟨s, hs⟩ : ∃ s, Simulation.start c = .ok s := ⟨_, Simulation.start_eq hc⟩
      rw [checked_of_valid hresolve hc, outcomeAfter_ok, (stopsIf_start? c).eq_lift hgrid, hs]
      rfl

theorem outcomeAfter_perform_verify (files : String → FileContent) (t : Timing) (o : Overrides)
    (runs : Nat) (h : ¬ Stops files (verify o runs)) :
    outcomeAfter [] (perform files t (verify o runs)) = outcome files t (verify o runs) := by
  by_cases hruns : runs = 0
  · subst hruns
    rfl
  rw [perform, outcome, if_neg hruns]
  cases hresolve : o.resolve files with
  | error f =>
    rw [checked_of_resolve_error hresolve, result_verify_error hruns hresolve]
    rfl
  | ok c =>
    rw [result_verify hruns hresolve]
    cases hc : c.validate with
    | error v =>
      rw [checked_of_invalid hresolve hc, Config.verify, hc]
      rfl
    | ok _ =>
      have hroom : ¬ (c.validate = .ok () ∧ (2 ^ 60 ≤ runs ∨ runs ≠ 0 ∧ ¬ c.GridFits)) :=
        fun hP => h ⟨hruns, c, hresolve, hP.1, hP.2.imp_right And.right⟩
      obtain ⟨s, hs⟩ : ∃ s, Simulation.start c = .ok s := ⟨_, Simulation.start_eq hc⟩
      have hlines := outcomeAfter_forM [heading c runs]
        (runLines (List.replicate runs s.run.checksum)) (say "Match: OK")
      rw [checked_of_valid hresolve hc, outcomeAfter_ok, (stopsIf_verify? c runs).eq_lift hroom,
        verify_eq hc hs]
      exact hlines

theorem outcomeAfter_perform (files : String → FileContent) (t : Timing) (command : Command) :
    outcomeAfter [] (perform files t command) = outcomeBounded files t command := by
  by_cases hstops : Stops files command
  · rw [outcomeBounded_of_stops t hstops, outcomeAfter_perform_of_stops t hstops]
  rw [outcomeBounded_of_not_stops t hstops]
  cases command with
  | info => exact outcomeAfter_forM [] infoLines (pure ())
  | run o json => exact outcomeAfter_perform_run files t o json hstops
  | verify o runs => exact outcomeAfter_perform_verify files t o runs hstops

end Command

end TileWorld
