import TileWorld.Json.Structure

/-!
Passing over a value that is not needed. It is checked to be JSON, but numbers may be of any size
and escaped units need not form pairs. The lists and objects that are still open are kept on a
stack, so there is no limit to their depth.
-/

namespace TileWorld.Json

inductive Frame where
  | list
  | object
deriving DecidableEq

def skipDigits (cs : List Char) : Except Error (List Char) :=
  match cs with
  | c :: rest =>
    if c.isDigit then .ok (rest.dropWhile Char.isDigit) else .error (.malformed .invalidNumber)
  | [] => .error (.malformed .invalidNumber)

def skipFraction? (cs : List Char) : Except Error (List Char) :=
  match cs with
  | '.' :: rest => skipDigits rest
  | cs => .ok cs

def skipExponent? (cs : List Char) : Except Error (List Char) :=
  match cs with
  | 'e' :: rest | 'E' :: rest =>
    match rest with
    | '+' :: rest | '-' :: rest => skipDigits rest
    | rest => skipDigits rest
  | cs => .ok cs

def skipNumber (cs : List Char) : Except Error (List Char) := do
  let rest ← skipDigits cs
  if cs.head? = some '0' && rest.length + 1 < cs.length then throw (.malformed .invalidNumber)
  let rest ← skipFraction? rest
  skipExponent? rest

/-- Passes over a value that is neither a list nor an object. -/
def skipScalar (cs : List Char) : Except Error (List Char) :=
  match cs with
  | 'n' :: rest => readWord ['u', 'l', 'l'] rest
  | 't' :: rest => readWord ['r', 'u', 'e'] rest
  | 'f' :: rest => readWord ['a', 'l', 's', 'e'] rest
  | '-' :: rest => skipNumber rest
  | '"' :: rest => skipText rest
  | c :: rest => if c.isDigit then skipNumber (c :: rest) else .error (.malformed .expectedValue)
  | [] => .error (.truncated .value)

def skipKey (cs : List Char) : Except Error (List Char) :=
  match skipBlank cs with
  | [] => .error (.truncated .object)
  | '"' :: rest => do readColon (← skipText rest)
  | _ => .error (.malformed .keyNotText)

/-- Closes what ends behind a value, and goes on to the next value within the innermost list or
object that is left open. When none is, all is read. -/
def skipToNext : List Frame → List Char → Except Error (List Frame × List Char)
  | [], cs => .ok ([], cs)
  | .list :: frames, cs =>
    match skipBlank cs with
    | [] => .error (.truncated .list)
    | ',' :: rest => .ok (.list :: frames, rest)
    | ']' :: rest => skipToNext frames rest
    | _ => .error (.malformed .expectedCommaOrListEnd)
  | .object :: frames, cs =>
    match skipBlank cs with
    | [] => .error (.truncated .object)
    | ',' :: rest => (skipKey rest).map fun rest => (.object :: frames, rest)
    | '\x7d' :: rest => skipToNext frames rest
    | _ => .error (.malformed .expectedCommaOrObjectEnd)

/-- Passes over the start of a value: all of it, or the opening of a list or object that is not
empty. -/
def skipStart (frames : List Frame) (cs : List Char) : Except Error (List Frame × List Char) :=
  match skipBlank cs with
  | [] => .error (.truncated .value)
  | '[' :: rest =>
    match skipBlank rest with
    | [] => .error (.truncated .list)
    | ']' :: rest => skipToNext frames rest
    | rest => .ok (.list :: frames, rest)
  | '\x7b' :: rest =>
    match skipBlank rest with
    | [] => .error (.truncated .object)
    | '\x7d' :: rest => skipToNext frames rest
    | rest => (skipKey rest).map fun rest => (.object :: frames, rest)
  | cs => do skipToNext frames (← skipScalar cs)

def skipUpTo : (n : Nat) → List Frame → List Char → Except Error (List Char)
  | 0, _, _ => .error (.truncated .value)
  | n + 1, frames, cs => do
    match ← skipStart frames cs with
    | ([], rest) => return rest
    | (frame :: frames, rest) => skipUpTo n (frame :: frames) rest

/-- Passes over one value. Each start of a value takes characters, so their number bounds the
starts. -/
def skipValue (cs : List Char) : Except Error (List Char) :=
  skipUpTo (cs.length + 1) [] cs

end TileWorld.Json
