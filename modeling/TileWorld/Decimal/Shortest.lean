import TileWorld.Decimal.Exact

/-!
The fewest decimal digits that read back as a given float. Decimal grids are tried from coarse to
fine; on each grid only the two neighbours of the exact value have to be looked at, since a grid
with any point among the reals that round to the float has one of these two among them.
-/

namespace TileWorld.Decimal

/-- The number `coefficient * 10 ^ exponent`. -/
structure Digits where
  coefficient : Nat
  exponent : Int
deriving DecidableEq

/-- The exponent of the first decimal digit of `num / den`, for positive `num` and `den`. -/
def leadingExponent (num den : Nat) : Int :=
  if den ≤ num then (Nat.toDigits 10 (num / den)).length - 1
  else -(Nat.toDigits 10 ((den - 1) / num)).length

/-- The float `mantissa * 2 ^ exponent` with a grid of the multiples of `10 ^ grid` laid over it.
Multiples `d` of the grid and quarters `n` of the float's last place are compared by way of
`d * unit` and `n * scale`. -/
structure Overlay where
  mantissa : Nat
  exponent : Int
  grid : Int

namespace Overlay

def unit (o : Overlay) : Nat :=
  Nat.pow 10 o.grid.toNat * Nat.pow 2 (2 - o.exponent).toNat

def scale (o : Overlay) : Nat :=
  Nat.pow 10 (-o.grid).toNat * Nat.pow 2 (o.exponent - 2).toNat

def value (o : Overlay) : Nat :=
  4 * o.mantissa * o.scale

/-- The distance to the float below is half as large where the exponent changes. -/
def lower (o : Overlay) : Nat :=
  let quarters := if o.mantissa = leastMantissa ∧ o.exponent ≠ leastExponent then 1 else 2
  (4 * o.mantissa - quarters) * o.scale

def upper (o : Overlay) : Nat :=
  (4 * o.mantissa + 2) * o.scale

/-- Whether the grid point `d` reads back as the float. The points midway to the neighbouring floats
do so if the mantissa is even. -/
def readsBack (o : Overlay) (d : Nat) : Bool :=
  if o.mantissa % 2 = 0 then o.lower ≤ d * o.unit ∧ d * o.unit ≤ o.upper
  else o.lower < d * o.unit ∧ d * o.unit < o.upper

def nearest (tie : Tie) (o : Overlay) : Nat :=
  roundDiv tie o.value o.unit

/-- The grid point that reads back, and the nearer one if both neighbours do. -/
def hit? (tie : Tie) (o : Overlay) : Option Nat :=
  let d := o.value / o.unit
  match o.readsBack d, o.readsBack (d + 1) with
  | true, true => some (o.nearest tie)
  | true, false => some d
  | false, true => some (d + 1)
  | false, false => none

end Overlay

/-- The first hit on `n` ever finer grids, and else the nearest point of the grid after them. -/
def scan (tie : Tie) (mantissa : Nat) (exponent : Int) : Nat → Int → Digits
  | 0, grid => ⟨Overlay.nearest tie ⟨mantissa, exponent, grid⟩, grid⟩
  | n + 1, grid =>
    match Overlay.hit? tie ⟨mantissa, exponent, grid⟩ with
    | some d => ⟨d, grid⟩
    | none => scan tie mantissa exponent n (grid - 1)

/-- The shortest digits of `mantissa * 2 ^ exponent`. Seventeen of them always read back. -/
def shortest (tie : Tie) (mantissa : Nat) (exponent : Int) : Digits :=
  if mantissa = 0 then ⟨0, 0⟩
  else
    let leading :=
      leadingExponent (mantissa * Nat.pow 2 exponent.toNat) (Nat.pow 2 (-exponent).toNat)
    scan tie mantissa exponent 17 (leading + 1)

end TileWorld.Decimal
