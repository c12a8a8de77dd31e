import TileWorld.Config.Basic
import TileWorld.Decimal.Reading

/-!
The arguments of the command line. Options may stand in any order, each at most once; a value stands
behind its option as an argument of its own, unless it begins with a dash, or in the same argument.
There is no help to be asked for: `--help`, `-h` and `help` are left out, and refused like anything
else that is not known.
-/

namespace TileWorld.Command

inductive Opt where
  | verbose
  | json
  | config
  | runs
  | field (f : Config.Field)
deriving DecidableEq

namespace Opt

def name : Opt → String
  | verbose => "verbose"
  | json => "json"
  | config => "config"
  | runs => "runs"
  | field f => f.name.map fun c => if c = '_' then '-' else c

def letter? : Opt → Option Char
  | verbose => some 'v'
  | config => some 'c'
  | runs => some 'r'
  | json | field _ => none

def takesValue : Opt → Bool
  | verbose | json => false
  | config | runs | field _ => true

end Opt

structure Given where
  opt : Opt
  /-- Empty for an option without a value. -/
  value : String

/-- Whether an argument can be the value of an option that stands before it. -/
def isValue (arg : String) : Bool :=
  arg = "-" || arg.toList.head? ≠ some '-'

/-- The options in letters behind one dash. Of the first that takes a value, that is all that
follows with or without an equals sign; if nothing does, the option is still in need of its
value. -/
def readLetters (known : List Opt) : List Char → Option (List Given × Option Opt)
  | [] => some ([], none)
  | c :: cs => do
    let o ← known.find? (·.letter? = some c)
    if o.takesValue then
      match cs with
      | [] => return ([], some o)
      | '=' :: v => return ([⟨o, String.ofList v⟩], none)
      | v => return ([⟨o, String.ofList v⟩], none)
    else
      let (given, open?) ← readLetters known cs
      return (⟨o, ""⟩ :: given, open?)

/-- The option named behind two dashes, with its value behind an equals sign. -/
def readName (known : List Opt) (cs : List Char) : Option (List Given × Option Opt) := do
  let o ← known.find? (·.name == String.ofList (cs.takeWhile (· ≠ '=')))
  match o.takesValue, cs.dropWhile (· ≠ '=') with
  | true, [] => return ([], some o)
  | true, _ :: v => return ([⟨o, String.ofList v⟩], none)
  | false, [] => return ([⟨o, ""⟩], none)
  | false, _ :: _ => none

/-- The options of one argument, and one that is still in need of its value. An argument that is no
option, or ends the options, gives `none`. -/
def readOption? (known : List Opt) (arg : String) : Option (Option (List Given × Option Opt)) :=
  match arg.toList with
  | '-' :: '-' :: [] | '-' :: [] => none
  | '-' :: '-' :: cs => some (readName known cs)
  | '-' :: cs => some (readLetters known cs)
  | _ => none

def readOptions (known : List Opt) : List String → Option (List Given × List String)
  | [] => some ([], [])
  | arg :: args => do
    match readOption? known arg with
    | none => return ([], arg :: args)
    | some found =>
      match ← found with
      | (given, none) =>
        let (more, rest) ← readOptions known args
        return (given ++ more, rest)
      | (given, some o) =>
        match args with
        | [] => none
        | v :: args =>
          if isValue v then
            let (more, rest) ← readOptions known args
            return (given ++ ⟨o, v⟩ :: more, rest)
          else none

/-- The options at the front of the arguments, if none is given twice. -/
def readDistinct (known : List Opt) (args : List String) : Option (List Given × List String) := do
  let (given, rest) ← readOptions known args
  if (given.map Given.opt).Nodup then return (given, rest) else none

/-- Options that nothing follows but a mark that ends them. -/
def readAllOptions (known : List Opt) (args : List String) : Option (List Given) := do
  let (given, rest) ← readDistinct known args
  if rest.isEmpty || rest = ["--"] then return given else none

/-- Where a configuration comes from: a file, if there is one, and what is laid over it. -/
structure Overrides where
  path : Option String
  assignments : List Config.Assignment

end TileWorld.Command

namespace TileWorld

inductive Command where
  | info
  | run (overrides : Command.Overrides) (json : Bool)
  | verify (overrides : Command.Overrides) (runs : Nat)

namespace Command

/-- A count may have a sign, but must not be below zero. -/
def readCount? (s : String) : Option UInt32 := do
  let n ← Decimal.readInt? s.toList
  if 0 ≤ n && n < UInt32.size then return n.toNat.toUInt32 else none

/-- A number of runs may have a plus sign. -/
def readRuns? (s : String) : Option Nat := do
  let n ← Decimal.readNat? (match s.toList with | '+' :: cs => cs | cs => cs)
  if n < UInt64.size then return n else none

def readValue? : (k : Config.Kind) → String → Option k.Value
  | .count, s => readCount? s
  | .real, s => Decimal.readFloat? s.toList

def readPath? (s : String) : Option String :=
  if s.isEmpty then none else some s

def Overrides.read? : List Given → Option Overrides
  | [] => some ⟨none, []⟩
  | ⟨.config, v⟩ :: given => do
    let path ← readPath? v
    return { ← Overrides.read? given with path := some path }
  | ⟨.field f, v⟩ :: given => do
    let value ← readValue? f.kind v
    let o ← Overrides.read? given
    return { o with assignments := ⟨f, value⟩ :: o.assignments }
  | _ :: given => Overrides.read? given

def configOptions : List Opt := .config :: Config.Field.all.map .field

def find? (given : List Given) (o : Opt) : Option String :=
  (given.find? (·.opt = o)).map Given.value

def readRun (args : List String) : Option Command := do
  let given ← readAllOptions (.verbose :: .json :: configOptions) args
  return .run (← Overrides.read? given) (find? given .json).isSome

def readVerify (args : List String) : Option Command := do
  let given ← readAllOptions (.verbose :: .runs :: configOptions) args
  let runs ← match find? given .runs with
    | none => some 2
    | some v => readRuns? v
  return .verify (← Overrides.read? given) runs

def read? (args : List String) : Option Command := do
  match ← readDistinct [.verbose] args with
  | (_, "info" :: args) => (readAllOptions [.verbose] args).map fun _ => .info
  | (_, "run" :: args) => readRun args
  | (_, "verify" :: args) => readVerify args
  | _ => none

end Command

end TileWorld
