import TileWorld.Config.Basic
import TileWorld.Json.Structure
import TileWorld.Json.Value

/-!
Configurations as JSON. A text gives a list of assignments, with no field twice, which are laid over
the defaults; the printed form gives every field.
-/

namespace TileWorld.Config

open Json

def typeName : String := "struct SimConfig"

def Kind.read : (k : Kind) → List Char → Except Error (k.Value × List Char)
  | .count => readCount
  | .real => readReal

def Assignment.read (f : Field) (cs : List Char) : Except Error (Assignment × List Char) :=
  (f.kind.read cs).map fun (v, rest) => (⟨f, v⟩, rest)

/-- Reads the member with the given key, whose field must be known and not yet assigned. -/
def readMember (done : List Assignment) (key : String) (cs : List Char) :
    Except Error (List Assignment × List Char) :=
  match Field.ofName? key with
  | none => .error (.mismatched (.unknownField key (Field.all.map Field.name)))
  | some f =>
    if done.any (·.field = f) then .error (.mismatched (.duplicateField key))
    else do
      let (a, rest) ← Assignment.read f (← readColon cs)
      return (done ++ [a], rest)

/-- Reads a list of values for the given fields, in order; the last ones may be missing. -/
def readItems : (fields : List Field) → (first : Bool) → List Char →
    Except Error (List Assignment × List Char)
  | [], _, cs => do return ([], ← closeList cs)
  | f :: fields, first, cs => do
    match ← nextItem? first cs with
    | none => return ([], ← closeList cs)
    | some cs =>
      let (a, rest) ← Assignment.read f cs
      let (as, rest) ← readItems fields false rest
      return (a :: as, rest)

def readAssignments (cs : List Char) : Except Error (List Assignment × List Char) :=
  readRecord typeName (readItems Field.all true) (readMembers readMember []) cs

def ofJson (text : String) : Except Error Config := do
  let as ← readDocument readAssignments text
  return ({} : Config).overlay as

def Kind.toJson : (k : Kind) → k.Value → Json.Value
  | .count, n => .natural n.toNat
  | .real, x => .real x

def toJson (c : Config) : Json.Value :=
  .object (Field.all.map fun f => (f.name, f.kind.toJson (c.get f)))

end TileWorld.Config
