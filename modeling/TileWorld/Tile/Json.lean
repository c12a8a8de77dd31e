import TileWorld.Tile
import TileWorld.Json.Structure

/-!
Tiles in JSON: the name of a tile, or an object with that name as its only key and `null` beside it.
-/

namespace TileWorld.Tile

open Json

def all : List Tile := [empty, solid]

/-- Reads the name of a tile behind its opening quote. -/
def readName (cs : List Char) : Except Error (Tile × List Char) := do
  let (s, rest) ← readText [] cs
  let name := String.ofList s
  match all.find? (·.name == name) with
  | some t => return (t, rest)
  | none => throw (.mismatched (.unknownVariant name (all.map Tile.name)))

def readNull (cs : List Char) : Except Error (List Char) :=
  match skipBlank cs with
  | [] => .error (.truncated .value)
  | 'n' :: rest => readWord ['u', 'l', 'l'] rest
  | cs => .error (unexpected "unit" cs)

/-- Reads the only member of an object, and its closing brace. Its key must be a text. -/
def readMember (cs : List Char) : Except Error (Tile × List Char) := do
  match skipBlank cs with
  | [] => throw (.truncated .object)
  | '"' :: rest =>
    let (t, rest) ← readName rest
    let rest ← readNull (← readColon rest)
    match skipBlank rest with
    | [] => throw (.truncated .object)
    | '\x7d' :: rest => return (t, rest)
    | _ => throw (.malformed .expectedValue)
  | '\x7d' :: _ => throw (.malformed .expectedValue)
  | _ => throw (.malformed .keyNotText)

def read (cs : List Char) : Except Error (Tile × List Char) :=
  match skipBlank cs with
  | [] => .error (.truncated .value)
  | '"' :: rest => readName rest
  | '\x7b' :: rest => readMember rest
  | _ => .error (.malformed .expectedValue)

def ofJson (text : String) : Except Error Tile :=
  readDocument read text

end TileWorld.Tile
