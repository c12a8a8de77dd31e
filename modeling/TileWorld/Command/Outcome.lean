import TileWorld.Command.Arguments
import TileWorld.Config.File
import TileWorld.Simulation.Determinism
import TileWorld.Simulation.Summary

/-!
What a command does: it finds its configuration, computes a result, and prints that result or a
message with its causes.
-/

namespace TileWorld

namespace Command

def versioned (name : String) : String := s!"{name} v0.1.0"

def commonVersion : String := versioned "tilesim-common"

def kernelVersion : String := versioned "tilesim-kernel"

inductive Failure where
  | load (path : String) (cause : Config.LoadError)
  | invalid (cause : Config.Violation)
  | noRuns
  | diverged (runs : Nat)
deriving DecidableEq

namespace Failure

def message : Failure → String
  | load path _ => s!"load config {path}"
  | invalid _ => "invalid configuration"
  | noRuns => "--runs must be at least 1"
  | diverged runs => s!"checksums diverged across {runs} runs"

def causes : Failure → List String
  | load _ e => [e.message, e.cause]
  | invalid v => [v.message]
  | noRuns | diverged _ => []

/-- Text whose lines after the first begin with `n` blanks. -/
def hang (n : Nat) (s : String) : String :=
  String.ofList <| s.toList.flatMap fun c =>
    if c = '\n' then '\n' :: List.replicate n ' ' else [c]

/-- The lines that list the causes; they are numbered unless there is only one. -/
def causeLines : List String → List String
  | [] => []
  | [cause] => ["", "Caused by:", "    " ++ hang 4 cause]
  | causes => "" :: "Caused by:" ::
      causes.mapIdx fun i cause => s!"    {i}: " ++ hang 7 cause

def text (f : Failure) : String :=
  "\n".intercalate (s!"Error: {f.message}" :: causeLines f.causes)

end Failure

def path? : Command → Option String
  | info => none
  | run o _ | verify o _ => o.path

inductive Result where
  | info
  | run (summary : Summary) (json : Bool)
  | verify (config : Config) (report : DeterminismReport)

/-- The defaults, or what the file has instead, with the assignments laid over them. -/
def Overrides.resolve (files : String → Config.FileContent) (o : Overrides) :
    Except Failure Config := do
  let base ←
    match o.path with
    | none => .ok {}
    | some path => (Config.ofFile (files path)).mapError (.load path)
  return base.overlay o.assignments

def result (files : String → Config.FileContent) : Command → Except Failure Result
  | info => .ok .info
  | run o json => do
    let c ← Overrides.resolve files o
    let s ← (Simulation.start c).mapError .invalid
    return .run s.run.summary json
  | verify o runs => do
    if runs = 0 then throw .noRuns
    let c ← Overrides.resolve files o
    return .verify c (← (c.verify runs).mapError .invalid)

/-- The same on a machine. -/
def result? (files : String → Config.FileContent) : Command → ExceptT Failure Option Result
  | info => return .info
  | run o json => do
    let c ← Overrides.resolve files o
    let s ← (Simulation.start? c).adapt .invalid
    return .run s.run.summary json
  | verify o runs => do
    if runs = 0 then throw .noRuns
    let c ← Overrides.resolve files o
    return .verify c (← (c.verify? runs).adapt .invalid)

structure Outcome where
  exit : Nat
  stdout : String
  error : Option String
deriving DecidableEq

def lines (ls : List String) : String :=
  String.join (ls.map (· ++ "\n"))

def infoLines : List String :=
  [versioned "tilesim", s!"common: {commonVersion}", s!"kernel: {kernelVersion}",
    s!"defaults: {({} : Config).toJson.pretty}"]

def heading (c : Config) (runs : Nat) : String :=
  s!"Determinism check: seed={c.seed}, frames={c.frames}, runs={runs}"

def reportLines (c : Config) (r : DeterminismReport) : List String :=
  heading c r.runs ::
    r.checksums.mapIdx fun i x => s!"Run {i + 1}: {checksumText x}"

def Result.outcome (t : Timing) : Result → Outcome
  | info => ⟨0, lines infoLines, none⟩
  | run s json => ⟨0, lines [if json then (s.toJson t).pretty else s.checksumText], none⟩
  | verify c r =>
    if r.isDeterministic then ⟨0, lines (reportLines c r ++ ["Match: OK"]), none⟩
    else
      ⟨1, lines (reportLines c r ++ ["Match: MISMATCH"]), some (Failure.diverged r.runs).text⟩

def Failure.outcome (f : Failure) : Outcome := ⟨1, "", some f.text⟩

def refused : Outcome := ⟨2, "", none⟩

/-- What the arguments come to with as much storage as it takes. -/
def execute (files : String → Config.FileContent) (t : Timing) (args : List String) : Outcome :=
  match read? args with
  | none => refused
  | some command =>
    match command.result files with
    | .ok r => r.outcome t
    | .error f => f.outcome

/-- The lines that are printed before the first run begins. -/
def announced (files : String → Config.FileContent) : Command → List String
  | info | run _ _ => []
  | verify o runs =>
    match Overrides.resolve files o with
    | .ok c => [heading c runs]
    | .error _ => []

/-- What a command comes to that is stopped by the machine. -/
def stopped (files : String → Config.FileContent) (command : Command) : Outcome :=
  ⟨101, lines (command.announced files), none⟩

/-- What a command comes to on a machine, whose storage is bounded. -/
def outcomeBounded (files : String → Config.FileContent) (t : Timing) (command : Command) :
    Outcome :=
  match (command.result? files).run with
  | some (.ok r) => r.outcome t
  | some (.error f) => f.outcome
  | none => command.stopped files

def executeBounded (files : String → Config.FileContent) (t : Timing) (args : List String) :
    Outcome :=
  match read? args with
  | none => refused
  | some command => command.outcomeBounded files t

end Command

end TileWorld
