import TileWorld.Decimal.Shortest

/-!
How digits are set out as text: shortest digits by the rules of a `Layout`, and a fixed number of
places after the point.
-/

namespace TileWorld.Decimal

def digits (n : Nat) : List Char := Nat.toDigits 10 n

def zeros (n : Nat) : List Char := List.replicate n '0'

structure Layout where
  tie : Tie
  /-- Whether a number whose first digit stands for `10 ^ e` is written without an exponent. -/
  positional : Int → Bool
  /-- Whether whole numbers end in `.0`. -/
  pointZero : Bool

namespace Layout

/-- Digits in their places around the decimal point. -/
def inPlaces (l : Layout) (d : Digits) : List Char :=
  let ds := digits d.coefficient
  if 0 ≤ d.exponent then
    ds ++ zeros d.exponent.toNat ++ if l.pointZero then ['.', '0'] else []
  else
    let places := (-d.exponent).toNat
    let ds := zeros (places + 1 - ds.length) ++ ds
    ds.take (ds.length - places) ++ '.' :: ds.drop (ds.length - places)

/-- Digits with a point after the first and an exponent that always has its sign. -/
def withExponent (d : Digits) : List Char :=
  let ds := digits d.coefficient
  let e := d.exponent + (ds.length - 1 : Nat)
  ds.take 1 ++ (if ds.length = 1 then [] else '.' :: ds.drop 1) ++
    'e' :: (if e < 0 then '-' else '+') :: digits e.natAbs

def magnitude (l : Layout) (d : Digits) : List Char :=
  if l.positional (d.exponent + ((digits d.coefficient).length - 1 : Nat)) then l.inPlaces d
  else withExponent d

end Layout

def signed (negative : Bool) (cs : List Char) : List Char :=
  if negative then '-' :: cs else cs

def nanText : List Char := ['N', 'a', 'N']

def infinityText : List Char := ['i', 'n', 'f']

/-- The shortest text of a float. -/
def Layout.chars (l : Layout) (x : Float) : List Char :=
  match exact x with
  | .nan => nanText
  | .infinite negative => signed negative infinityText
  | .finite negative m q => signed negative (l.magnitude (shortest l.tie m q))

def Layout.text (l : Layout) (x : Float) : String := String.ofList (l.chars x)

/-- The text of a float's exact value rounded to `places` digits after the point, a tie going to the
even last digit. A sign is kept also where the rounded value is zero. -/
def fixedChars (places : Nat) (x : Float) : List Char :=
  match exact x with
  | .nan => nanText
  | .infinite negative => signed negative infinityText
  | .finite negative m q =>
    let n := roundDiv .toEven (m * Nat.pow 2 q.toNat * Nat.pow 10 places) (Nat.pow 2 (-q).toNat)
    let fraction := digits (n % Nat.pow 10 places)
    signed negative (digits (n / Nat.pow 10 places) ++
      '.' :: (zeros (places - fraction.length) ++ fraction))

/-- Plain positional text without a trailing `.0`, in which a tie between two shortest texts goes
up. Messages show numbers in this way. -/
def plain : Layout := ⟨.up, fun _ => true, false⟩

example : plain.text 1.5 = "1.5" ∧ plain.text (-0.0) = "-0" ∧ plain.text 1e-7 = "0.0000001" ∧
    plain.text 1e17 = "100000000000000000" := by decide +kernel

example : fixedChars 2 0.125 = ['0', '.', '1', '2'] ∧
    fixedChars 2 (-0.001) = ['-', '0', '.', '0', '0'] := by decide +kernel

end TileWorld.Decimal
