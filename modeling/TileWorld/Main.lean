import TileWorld.Command.Outcome

/-!
The program: it reads the configuration file that the arguments name, times the command, prints its
outcome, and exits with the outcome's code.
-/

namespace TileWorld.Program

def usage : String := "usage: tilesim [-v] info | run [OPTIONS] | verify [OPTIONS]"

/-- The content of a file. An error that is neither of the two that a content can be is left to the
system, which ends the program with it. -/
def readContent (path : String) : IO Config.FileContent := do
  try
    return .bytes (← IO.FS.readBinFile path)
  catch
    | .noFileOrDirectory .. => return .missing
    | .inappropriateType _ 21 _ => return .directory
    | e => throw e

def printOutcome (o : Command.Outcome) : IO UInt32 := do
  IO.print o.stdout
  if let some text := o.error then IO.eprintln text
  return o.exit.toUInt32

def run (args : List String) : IO UInt32 := do
  match Command.read? args with
  | none =>
    IO.eprintln usage
    printOutcome Command.refused
  | some command =>
    let content ←
      match command.path? with
      | none => pure .missing
      | some path => readContent path
    let begun ← IO.monoNanosNow
    match (command.result? fun _ => content).run with
    | none => printOutcome (command.stopped fun _ => content)
    | some (.error f) => printOutcome f.outcome
    | some (.ok result) =>
      let ended ← IO.monoNanosNow
      printOutcome (result.outcome (.seconds ((ended - begun).toFloat / 1e9)))

end TileWorld.Program

def main (args : List String) : IO UInt32 :=
  TileWorld.Program.run args
