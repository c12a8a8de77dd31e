import TileWorld.Generator
import TileWorld.Json.Skip
import TileWorld.Json.Value

/-!
Saving and loading a generator as JSON. Members other than the state are passed over.
-/

namespace TileWorld.Generator

open Json

def typeName : String := "struct Rng"

def stateKey : String := "state"

def toJson (g : Generator) : Value :=
  .object [(stateKey, .natural g.state.toNat)]

def readMember (state : Option UInt32) (key : String) (cs : List Char) :
    Except Error (Option UInt32 × List Char) := do
  if key = stateKey then
    if state.isSome then throw (.mismatched (.duplicateField key))
    let (n, rest) ← readCount (← readColon cs)
    return (some n, rest)
  else
    return (state, ← skipValue (← readColon cs))

def readFields (cs : List Char) : Except Error (Generator × List Char) := do
  match ← readMembers readMember none cs with
  | (some n, rest) => return (⟨n⟩, rest)
  | (none, _) => throw (.mismatched (.missingField stateKey))

def readItems (cs : List Char) : Except Error (Generator × List Char) := do
  match ← nextItem? true cs with
  | none => throw (.mismatched (.invalidLength 0 s!"{typeName} with 1 element"))
  | some cs =>
    let (n, rest) ← readCount cs
    return (⟨n⟩, ← closeList rest)

def ofJson (text : String) : Except Error Generator :=
  readDocument (readRecord typeName readItems readFields) text

end TileWorld.Generator
