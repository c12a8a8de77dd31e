import TileWorld.Simulation.Basic
import TileWorld.Json.Value

/-!
Repeating a run from scratch and comparing the checksums bit by bit.
-/

namespace TileWorld

structure DeterminismReport where
  runs : Nat
  checksums : List Float
  isDeterministic : Bool

/-- Whether neighbours in a list have the same bits. -/
def sameBits : List Float → Bool
  | x :: y :: rest => x.toBits == y.toBits && sameBits (y :: rest)
  | _ => true

namespace Config

def checksum (c : Config) : Except Violation Float :=
  return (← Simulation.start c).run.checksum

/-- The run as often as asked for, with as much storage as its checksums take. -/
def verify (c : Config) (runs : Nat) : Except Violation DeterminismReport := do
  c.validate
  let checksums ← (List.replicate runs c).mapM checksum
  return ⟨runs, checksums, sameBits checksums⟩

def checksum? (c : Config) : ExceptT Violation Option Float :=
  return (← Simulation.start? c).run.checksum

/-- The same on a machine, which is asked for storage for all checksums before the first run. -/
def verify? (c : Config) (runs : Nat) : ExceptT Violation Option DeterminismReport := do
  c.validate
  Machine.reserve? 8 runs
  let checksums ← (List.replicate runs c).mapM checksum?
  return ⟨runs, checksums, sameBits checksums⟩

end Config

def DeterminismReport.toJson (r : DeterminismReport) : Json.Value :=
  .object [
    ("runs", .natural r.runs),
    ("checksums", .list (r.checksums.map .real)),
    ("is_deterministic", .boolean r.isDeterministic)]

end TileWorld
