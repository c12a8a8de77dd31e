import TileWorld.Json.Number
import TileWorld.Json.Token

/-!
Reading values of a known shape: numbers, the items of a list, the members of an object, and a text
that holds one value. The first fault from the left is the one that is reported, and a value of the
wrong kind is reported as soon as its kind is known.
-/

namespace TileWorld.Json

/-- The error for the value at the start of `cs` where something else is expected. -/
def unexpected (expected : String) (cs : List Char) : Error :=
  let found : Except Error Found :=
    match cs with
    | 'n' :: rest => (readWord ['u', 'l', 'l'] rest).map fun _ => .null
    | 't' :: rest => (readWord ['r', 'u', 'e'] rest).map fun _ => .boolean true
    | 'f' :: rest => (readWord ['a', 'l', 's', 'e'] rest).map fun _ => .boolean false
    | '-' :: rest => (readNumber true rest).map fun (n, _) => n.found
    | '"' :: rest => (readText [] rest).map fun (s, _) => .text (String.ofList s)
    | '[' :: _ => .ok .list
    | '\x7b' :: _ => .ok .object
    | c :: rest =>
      if c.isDigit then (readNumber false (c :: rest)).map fun (n, _) => n.found
      else .error (.malformed .expectedValue)
    | [] => .error (.truncated .value)
  match found with
  | .ok found => .mismatched (.invalidType found expected)
  | .error e => e

/-- Reads a number; `expected` names its type in errors. -/
def readNumberAs (expected : String) (cs : List Char) : Except Error (Number × List Char) :=
  match skipBlank cs with
  | [] => .error (.truncated .value)
  | '-' :: rest => readNumber true rest
  | c :: rest =>
    if c.isDigit then readNumber false (c :: rest) else .error (unexpected expected (c :: rest))

def readCount (cs : List Char) : Except Error (UInt32 × List Char) := do
  let (n, rest) ← readNumberAs "u32" cs
  match n.toCount with
  | .ok n => return (n, rest)
  | .error fault => throw (.mismatched fault)

def readReal (cs : List Char) : Except Error (Float × List Char) := do
  let (n, rest) ← readNumberAs "f64" cs
  return (n.toReal, rest)

/-- Finds the next item of a list, before which there is a comma unless it is the first one. There
is none at the closing bracket, which is left in place. -/
def nextItem? (first : Bool) (cs : List Char) : Except Error (Option (List Char)) :=
  match skipBlank cs with
  | [] => .error (.truncated .list)
  | ']' :: _ => .ok none
  | c :: rest =>
    if first then .ok (some (c :: rest))
    else if c = ',' then
      match skipBlank rest with
      | [] => .error (.truncated .value)
      | ']' :: _ => .error (.malformed .trailingComma)
      | cs => .ok (some cs)
    else .error (.malformed .expectedCommaOrListEnd)

def closeList (cs : List Char) : Except Error (List Char) :=
  match skipBlank cs with
  | [] => .error (.truncated .list)
  | ']' :: rest => .ok rest
  | ',' :: rest =>
    match skipBlank rest with
    | ']' :: _ => .error (.malformed .trailingComma)
    | _ => .error (.malformed .trailingCharacters)
  | _ => .error (.malformed .trailingCharacters)

def readKey (cs : List Char) : Except Error (Option String × List Char) :=
  (readText [] cs).map fun (s, rest) => (some (String.ofList s), rest)

/-- Reads the next key of an object, before which there is a comma unless it is the first one. There
is none at the closing brace, which is read. -/
def nextKey? (first : Bool) (cs : List Char) : Except Error (Option String × List Char) :=
  match skipBlank cs with
  | [] => .error (.truncated .object)
  | '\x7d' :: rest => .ok (none, rest)
  | c :: rest =>
    if first then
      if c = '"' then readKey rest else .error (.malformed .keyNotText)
    else if c = ',' then
      match skipBlank rest with
      | [] => .error (.truncated .value)
      | '"' :: rest => readKey rest
      | '\x7d' :: _ => .error (.malformed .trailingComma)
      | _ => .error (.malformed .keyNotText)
    else .error (.malformed .expectedCommaOrObjectEnd)

def readColon (cs : List Char) : Except Error (List Char) :=
  match skipBlank cs with
  | [] => .error (.truncated .object)
  | ':' :: rest => .ok rest
  | _ => .error (.malformed .expectedColon)

/-- Reads up to `n` keys with their members, behind the opening brace. -/
def readMembersUpTo {σ : Type} (member : σ → String → List Char → Except Error (σ × List Char)) :
    (n : Nat) → (first : Bool) → σ → List Char → Except Error (σ × List Char)
  | 0, _, _, _ => .error (.truncated .object)
  | n + 1, first, state, cs => do
    match ← nextKey? first cs with
    | (none, rest) => return (state, rest)
    | (some key, rest) =>
      let (state, rest) ← member state key rest
      readMembersUpTo member n false state rest

/-- Reads the members of an object behind its opening brace. What a key means for the state, and how
the rest of its member is read, is up to `member`. Each key takes characters, so their number bounds
the keys. -/
def readMembers {σ : Type} (member : σ → String → List Char → Except Error (σ × List Char))
    (state : σ) (cs : List Char) : Except Error (σ × List Char) :=
  readMembersUpTo member (cs.length + 1) true state cs

/-- Reads a record, which is an object or a list of its fields in order. -/
def readRecord {α : Type} (expected : String)
    (readItems readFields : List Char → Except Error (α × List Char)) (cs : List Char) :
    Except Error (α × List Char) :=
  match skipBlank cs with
  | [] => .error (.truncated .value)
  | '[' :: rest => readItems rest
  | '\x7b' :: rest => readFields rest
  | cs => .error (unexpected expected cs)

def readDocument {α : Type} (read : List Char → Except Error (α × List Char)) (text : String) :
    Except Error α := do
  let (v, rest) ← read text.toList
  if (skipBlank rest).isEmpty then return v else throw (.malformed .trailingCharacters)

end TileWorld.Json
