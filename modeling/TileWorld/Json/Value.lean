import TileWorld.Json.Error

/-!
JSON values and their two texts, without any blank and with one member to a line.
-/

namespace TileWorld.Json

inductive Value where
  | null
  | boolean (b : Bool)
  | natural (n : Nat)
  | real (x : Float)
  | text (s : String)
  | list (items : List Value)
  | object (members : List (String × Value))

def escapeChar (c : Char) : List Char :=
  match c with
  | '"' => ['\\', '"']
  | '\\' => ['\\', '\\']
  | '\x08' => ['\\', 'b']
  | '\x0c' => ['\\', 'f']
  | '\n' => ['\\', 'n']
  | '\r' => ['\\', 'r']
  | '\t' => ['\\', 't']
  | c =>
    if c < ' ' then
      ['\\', 'u', '0', '0', Nat.digitChar (c.toNat / 16), Nat.digitChar (c.toNat % 16)]
    else [c]

def textChars (s : String) : List Char :=
  '"' :: s.toList.flatMap escapeChar ++ ['"']

def realChars (x : Float) : List Char :=
  if x.isFinite then numbers.chars x else ['n', 'u', 'l', 'l']

/-- Parts between two brackets, with a comma after each but the last. Where there is an `indent`,
each part has a line of its own that begins with so many blanks. -/
def bracket (opening closing : Char) (indent : Option Nat) (parts : List (List Char)) : List Char :=
  match indent with
  | none => opening :: List.intercalate [','] parts ++ [closing]
  | some n =>
    if parts.isEmpty then [opening, closing]
    else
      let line := '\n' :: List.replicate n ' '
      opening :: line ++ List.intercalate (',' :: line) parts ++
        '\n' :: List.replicate (n - 2) ' ' ++ [closing]

def keyChars (indent : Option Nat) (key : String) : List Char :=
  textChars key ++ if indent.isSome then [':', ' '] else [':']

namespace Value

mutual

/-- The text of a value; `indent` is that of the parts of the value, if they have lines of their
own. -/
def chars (indent : Option Nat) : Value → List Char
  | null => ['n', 'u', 'l', 'l']
  | boolean b => if b then ['t', 'r', 'u', 'e'] else ['f', 'a', 'l', 's', 'e']
  | natural n => Decimal.digits n
  | real x => realChars x
  | text s => textChars s
  | list items => bracket '[' ']' indent (itemChars (indent.map (· + 2)) items)
  | object members => bracket '\x7b' '\x7d' indent (memberChars (indent.map (· + 2)) members)

def itemChars (indent : Option Nat) : List Value → List (List Char)
  | [] => []
  | v :: vs => v.chars indent :: itemChars indent vs

def memberChars (indent : Option Nat) : List (String × Value) → List (List Char)
  | [] => []
  | (key, v) :: ms => (keyChars indent key ++ v.chars indent) :: memberChars indent ms

end

def compact (v : Value) : String := String.ofList (v.chars none)

/-- Text with two blanks of indentation for each level. -/
def pretty (v : Value) : String := String.ofList (v.chars (some 2))

end Value

end TileWorld.Json
