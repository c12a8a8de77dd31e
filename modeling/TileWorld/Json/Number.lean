import TileWorld.Json.Error

/-!
Numbers in JSON text. A numeral is read as it is written; its value is a whole number if it has
neither a point nor an exponent and fits in 64 bits, and else a float. A float is made from at most
64 bits of significand by one multiplication or division by a power of ten, so its last place may be
off where the significand is longer than a float's own.
-/

namespace TileWorld.Json

/-- A number as it is written. Without a point there are no fraction digits. -/
structure Numeral where
  negative : Bool
  whole : List Char
  fraction : List Char
  exponent : Option Int
deriving DecidableEq

inductive Number where
  | natural (n : Nat)
  /-- The number `-n`. -/
  | negative (n : Nat)
  | real (x : Float)
deriving DecidableEq

/-- The error for a digit that is missing before `rest`. -/
def missingDigit (rest : List Char) : Error :=
  if rest.isEmpty then .truncated .value else .malformed .invalidNumber

def readExponent (cs : List Char) : Except Error (Int × List Char) :=
  let (negative, cs) : Bool × List Char :=
    match cs with
    | '+' :: cs => (false, cs)
    | '-' :: cs => (true, cs)
    | cs => (false, cs)
  let ds := cs.takeWhile Char.isDigit
  let rest := cs.dropWhile Char.isDigit
  if ds.isEmpty then .error (missingDigit rest)
  else
    let n := Nat.ofDigitChars 10 ds 0
    .ok (if negative then -(n : Int) else n, rest)

def readExponent? (cs : List Char) : Except Error (Option Int × List Char) :=
  match cs with
  | 'e' :: cs | 'E' :: cs => (readExponent cs).map fun (e, rest) => (some e, rest)
  | cs => .ok (none, cs)

def readFraction? (cs : List Char) : Except Error (List Char × List Char) :=
  match cs with
  | '.' :: cs =>
    let ds := cs.takeWhile Char.isDigit
    let rest := cs.dropWhile Char.isDigit
    if ds.isEmpty then .error (missingDigit rest) else .ok (ds, rest)
  | cs => .ok ([], cs)

/-- Reads a numeral behind its sign. A leading zero stands alone before the point. -/
def readNumeral (negative : Bool) (cs : List Char) : Except Error (Numeral × List Char) := do
  let whole := cs.takeWhile Char.isDigit
  let rest := cs.dropWhile Char.isDigit
  match whole with
  | [] => throw (missingDigit rest)
  | '0' :: _ :: _ => throw (.malformed .invalidNumber)
  | _ =>
    let (fraction, rest) ← readFraction? rest
    let (exponent, rest) ← readExponent? rest
    return (⟨negative, whole, fraction, exponent⟩, rest)

/-- Takes digits into a significand as long as it fits in 64 bits, and gives back the others. -/
def absorb : Nat → List Char → Nat × List Char
  | s, [] => (s, [])
  | s, c :: cs =>
    let s' := Nat.ofDigitChars 10 [c] s
    if s' < UInt64.size then absorb s' cs else (s, c :: cs)

def powerOfTen (n : Nat) : Float := (Nat.pow 10 n).toFloat

/-- The float `x * 10 ^ e`, rounded after each step, unless it is too large. Powers of ten are
floats up to the 308th; below that the division is made in two steps, and two of them leave
nothing. -/
def scale? (x : Float) (e : Int) : Option Float :=
  if 0 ≤ e then
    if e ≤ 308 then
      let y := x * powerOfTen e.toNat
      if y.isInf then none else some y
    else if x == 0 then some x
    else none
  else if -308 ≤ e then some (x / powerOfTen (-e).toNat)
  else if -616 ≤ e then some (x / powerOfTen 308 / powerOfTen (-e - 308).toNat)
  else some 0

namespace Numeral

def isWhole (n : Numeral) : Bool := n.fraction.isEmpty && n.exponent.isNone

def real? (n : Numeral) : Option Float :=
  let (s, wholeRest) := absorb 0 n.whole
  let (s, fractionRest) := absorb s n.fraction
  let places : Int := n.fraction.length - fractionRest.length
  let e := wholeRest.length - places + n.exponent.getD 0
  (scale? s.toUInt64.toFloat e).map fun x => if n.negative then -x else x

/-- The value of a numeral, unless it is too large. Negative zero is a float. -/
def number? (n : Numeral) : Option Number :=
  let (s, rest) := absorb 0 n.whole
  if n.isWhole && rest.isEmpty && (!n.negative || 0 < s && s ≤ Nat.pow 2 63) then
    some (if n.negative then .negative s else .natural s)
  else n.real?.map .real

end Numeral

def readNumber (negative : Bool) (cs : List Char) : Except Error (Number × List Char) := do
  let (n, rest) ← readNumeral negative cs
  match n.number? with
  | some v => return (v, rest)
  | none => throw (.malformed .numberOutOfRange)

namespace Number

def found : Number → Found
  | natural n => .integer n
  | negative n => .integer (-n)
  | real x => .real x

def toReal : Number → Float
  | natural n => n.toUInt64.toFloat
  | negative n => -n.toUInt64.toFloat
  | real x => x

def toCount (n : Number) : Except Mismatch UInt32 :=
  match n with
  | natural k => if k < UInt32.size then .ok k.toUInt32 else .error (.invalidValue n.found "u32")
  | negative _ => .error (.invalidValue n.found "u32")
  | real _ => .error (.invalidType n.found "u32")

end Number

end TileWorld.Json
