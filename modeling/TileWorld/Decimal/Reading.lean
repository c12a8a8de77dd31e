import TileWorld.Decimal.Exact

/-!
Reading decimal numbers from text as a whole. A float is the one nearest to the number written.
-/

namespace TileWorld.Decimal

/-- The sign, if there is one, and what is behind it. -/
def readSign : List Char → Bool × List Char
  | '-' :: cs => (true, cs)
  | '+' :: cs => (false, cs)
  | cs => (false, cs)

def readNat? (cs : List Char) : Option Nat :=
  if !cs.isEmpty && cs.all Char.isDigit then some (Nat.ofDigitChars 10 cs 0) else none

def readInt? (cs : List Char) : Option Int :=
  let (negative, cs) := readSign cs
  (readNat? cs).map fun n => if negative then -(n : Int) else n

/-- The float nearest to `n * 10 ^ e`. Where the exponent of the leading digit alone decides, the
power is not formed. -/
def nearestFloat (n : Nat) (e : Int) : Float :=
  let size : Int := e + (Nat.toDigits 10 n).length
  if n = 0 || size < -400 then 0
  else if 400 < size then 1 / 0
  else if 0 ≤ e then .ofScientific n false e.toNat
  else .ofScientific n true (-e).toNat

/-- Digits with an optional point before, among or behind them, and an optional exponent. -/
def readUnsigned? (cs : List Char) : Option Float := do
  let whole := cs.takeWhile Char.isDigit
  let cs := cs.dropWhile Char.isDigit
  let (fraction, cs) : List Char × List Char :=
    match cs with
    | '.' :: cs => (cs.takeWhile Char.isDigit, cs.dropWhile Char.isDigit)
    | cs => ([], cs)
  let e ←
    match cs with
    | [] => some 0
    | 'e' :: cs | 'E' :: cs => readInt? cs
    | _ => none
  if whole.isEmpty && fraction.isEmpty then none
  else some (nearestFloat (Nat.ofDigitChars 10 (whole ++ fraction) 0) (e - fraction.length))

/-- A float, in digits or by one of the names of an infinity or a NaN, in letters of either case. -/
def readFloat? (cs : List Char) : Option Float :=
  let (negative, cs) := readSign cs
  let name := String.ofList (cs.map Char.toLower)
  let value :=
    if name = "inf" || name = "infinity" then some (1 / 0)
    else if name = "nan" then some (0 / 0)
    else readUnsigned? cs
  value.map fun x => if negative then -x else x

end TileWorld.Decimal
