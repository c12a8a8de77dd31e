import TileWorld.Decimal.Layout
import TileWorld.Text.Quoted

/-!
Why a JSON text is refused: it ends too early, it is no JSON, or it is JSON of the wrong shape.
-/

namespace TileWorld.Json

/-- Numbers in JSON text: positional from `0.00001` to below `10 ^ 16`, and whole numbers end in
`.0`. A tie between two shortest texts goes to the even last digit. -/
def numbers : Decimal.Layout := ⟨.toEven, fun e => -5 ≤ e && e ≤ 15, true⟩

example : numbers.text 1e15 = "1000000000000000.0" ∧ numbers.text 1e16 = "1e+16" ∧
    numbers.text 0.00001 = "0.00001" ∧ numbers.text 0.0000015 = "1.5e-6" := by decide +kernel

inductive Place where
  | value
  | list
  | object
  | text
deriving DecidableEq

inductive Malformation where
  | expectedValue
  | expectedWord
  | invalidNumber
  | numberOutOfRange
  | trailingComma
  | expectedCommaOrListEnd
  | expectedCommaOrObjectEnd
  | expectedColon
  | keyNotText
  | trailingCharacters
  | invalidEscape
  | loneSurrogate
  | unfinishedPair
  | controlCharacter
deriving DecidableEq

/-- A value of the wrong shape, read as far as is needed to name it. -/
inductive Found where
  | null
  | boolean (b : Bool)
  | integer (n : Int)
  | real (x : Float)
  | text (s : String)
  | list
  | object
deriving DecidableEq

inductive Mismatch where
  | invalidType (found : Found) (expected : String)
  | invalidValue (found : Found) (expected : String)
  | invalidLength (length : Nat) (expected : String)
  | missingField (name : String)
  | duplicateField (name : String)
  | unknownField (name : String) (known : List String)
  | unknownVariant (name : String) (known : List String)
deriving DecidableEq

inductive Error where
  | truncated (place : Place)
  | malformed (fault : Malformation)
  | mismatched (fault : Mismatch)
deriving DecidableEq

def Place.name : Place → String
  | value => "a value"
  | list => "a list"
  | object => "an object"
  | text => "a string"

def Malformation.message : Malformation → String
  | expectedValue => "expected value"
  | expectedWord => "expected ident"
  | invalidNumber => "invalid number"
  | numberOutOfRange => "number out of range"
  | trailingComma => "trailing comma"
  | expectedCommaOrListEnd => "expected `,` or `]`"
  | expectedCommaOrObjectEnd => "expected `,` or `\x7d`"
  | expectedColon => "expected `:`"
  | keyNotText => "key must be a string"
  | trailingCharacters => "trailing characters"
  | invalidEscape => "invalid escape"
  | loneSurrogate => "lone leading surrogate in hex escape"
  | unfinishedPair => "unexpected end of hex escape"
  | controlCharacter => "control character (\\u0000-\\u001F) found while parsing a string"

def Found.description : Found → String
  | null => "null"
  | boolean b => s!"boolean `{b}`"
  | integer n => s!"integer `{n}`"
  | real x => s!"floating point `{numbers.text x}`"
  | text s => s!"string {Text.quoted s}"
  | list => "sequence"
  | object => "map"

def oneOf (names : List String) : String :=
  match names.map fun name => s!"`{name}`" with
  | [a] => a
  | [a, b] => s!"{a} or {b}"
  | all => "one of " ++ ", ".intercalate all

def Mismatch.message : Mismatch → String
  | invalidType found expected => s!"invalid type: {found.description}, expected {expected}"
  | invalidValue found expected => s!"invalid value: {found.description}, expected {expected}"
  | invalidLength length expected => s!"invalid length {length}, expected {expected}"
  | missingField name => s!"missing field `{name}`"
  | duplicateField name => s!"duplicate field `{name}`"
  | unknownField name known => s!"unknown field `{name}`, expected {oneOf known}"
  | unknownVariant name known => s!"unknown variant `{name}`, expected {oneOf known}"

def Error.message : Error → String
  | truncated place => s!"EOF while parsing {place.name}"
  | malformed fault => fault.message
  | mismatched fault => fault.message

end TileWorld.Json
