import TileWorld.Json.Error

/-!
The parts of JSON text below the level of values: blanks, words, and quoted text. Every reader takes
the characters that are left and gives back what is left after it.
-/

namespace TileWorld.Json

def isBlank (c : Char) : Bool :=
  c = ' ' || c = '\t' || c = '\n' || c = '\r'

def skipBlank (cs : List Char) : List Char :=
  cs.dropWhile isBlank

def readWord : (word : List Char) → List Char → Except Error (List Char)
  | [], cs => .ok cs
  | _ :: _, [] => .error (.truncated .value)
  | w :: word, c :: cs => if c = w then readWord word cs else .error (.malformed .expectedWord)

def hexDigit? (c : Char) : Option Nat :=
  if c.isDigit then some (c.toNat - '0'.toNat)
  else if 'a' ≤ c ∧ c ≤ 'f' then some (c.toNat - 'a'.toNat + 10)
  else if 'A' ≤ c ∧ c ≤ 'F' then some (c.toNat - 'A'.toNat + 10)
  else none

def hexUnit? (a b c d : Char) : Option Nat :=
  match hexDigit? a, hexDigit? b, hexDigit? c, hexDigit? d with
  | some a, some b, some c, some d => some (((a * 16 + b) * 16 + c) * 16 + d)
  | _, _, _, _ => none

/-- Why fewer than four characters are no escaped unit. The text counts as ended if less than four
bytes are left. -/
def shortUnit (cs : List Char) : Error :=
  if cs.foldr (fun c n => c.utf8Size + n) 0 < 4 then .truncated .text else .malformed .invalidEscape

def letterEscape? (c : Char) : Option Char :=
  match c with
  | '"' => some '"'
  | '\\' => some '\\'
  | '/' => some '/'
  | 'b' => some '\x08'
  | 'f' => some '\x0c'
  | 'n' => some '\n'
  | 'r' => some '\r'
  | 't' => some '\t'
  | _ => none

abbrev IsHighSurrogate (u : Nat) : Prop := 0xD800 ≤ u ∧ u < 0xDC00

abbrev IsLowSurrogate (u : Nat) : Prop := 0xDC00 ≤ u ∧ u < 0xE000

/-- Why the text behind a high surrogate does not go on with an escaped unit. -/
def brokenPair : List Char → Error
  | [] | ['\\'] => .truncated .text
  | '\\' :: 'u' :: cs => shortUnit cs
  | _ => .malformed .unfinishedPair

/-- Reads text behind its opening quote. The characters read so far are in `acc`, the last first. -/
def readText (acc : List Char) : List Char → Except Error (List Char × List Char)
  | [] => .error (.truncated .text)
  | '"' :: rest => .ok (acc.reverse, rest)
  | '\\' :: rest =>
    match rest with
    | [] => .error (.truncated .text)
    | 'u' :: rest =>
      match rest with
      | a :: b :: c :: d :: rest =>
        match hexUnit? a b c d with
        | none => .error (.malformed .invalidEscape)
        | some u =>
          if IsLowSurrogate u then .error (.malformed .loneSurrogate)
          else if IsHighSurrogate u then
            match rest with
            | '\\' :: 'u' :: a :: b :: c :: d :: rest =>
              match hexUnit? a b c d with
              | none => .error (.malformed .invalidEscape)
              | some v =>
                if IsLowSurrogate v then
                  readText (.ofNat (0x10000 + (u - 0xD800) * 0x400 + (v - 0xDC00)) :: acc) rest
                else .error (.malformed .loneSurrogate)
            | cs => .error (brokenPair cs)
          else readText (.ofNat u :: acc) rest
      | cs => .error (shortUnit cs)
    | c :: rest =>
      match letterEscape? c with
      | none => .error (.malformed .invalidEscape)
      | some c => readText (c :: acc) rest
  | c :: rest =>
    if c < ' ' then .error (.malformed .controlCharacter) else readText (c :: acc) rest

/-- Passes over text behind its opening quote. Escaped units need not form pairs here. -/
def skipText : List Char → Except Error (List Char)
  | [] => .error (.truncated .text)
  | '"' :: rest => .ok rest
  | '\\' :: rest =>
    match rest with
    | [] => .error (.truncated .text)
    | 'u' :: rest =>
      match rest with
      | a :: b :: c :: d :: rest =>
        match hexUnit? a b c d with
        | none => .error (.malformed .invalidEscape)
        | some _ => skipText rest
      | cs => .error (shortUnit cs)
    | c :: rest =>
      match letterEscape? c with
      | none => .error (.malformed .invalidEscape)
      | some _ => skipText rest
  | c :: rest => if c < ' ' then .error (.malformed .controlCharacter) else skipText rest

end TileWorld.Json
