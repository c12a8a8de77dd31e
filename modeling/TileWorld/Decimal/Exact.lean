/-!
The exact value of a float, and rounding of exact quotients to whole numbers.
-/

namespace TileWorld.Decimal

/-- What the bits of a float stand for; a finite one is `± mantissa * 2 ^ exponent`. -/
inductive Exact where
  | nan
  | infinite (negative : Bool)
  | finite (negative : Bool) (mantissa : Nat) (exponent : Int)
deriving DecidableEq

def leastExponent : Int := -1074

/-- The least mantissa of a float that is not subnormal. -/
def leastMantissa : Nat := Nat.pow 2 52

def exact (x : Float) : Exact :=
  let bits := x.toBits.toNat
  let negative := bits / Nat.pow 2 63 == 1
  let biased := bits / Nat.pow 2 52 % Nat.pow 2 11
  let fraction := bits % Nat.pow 2 52
  if biased = 2047 then
    if fraction = 0 then .infinite negative else .nan
  else if biased = 0 then .finite negative fraction leastExponent
  else .finite negative (leastMantissa + fraction) (leastExponent + (biased - 1 : Nat))

/-- Where a quotient midway between two whole numbers goes. -/
inductive Tie where
  | toEven
  | up
deriving DecidableEq

/-- The whole number nearest to `num / den`. -/
def roundDiv (tie : Tie) (num den : Nat) : Nat :=
  let q := num / den
  match compare (2 * (num % den)) den, tie with
  | .lt, _ => q
  | .gt, _ => q + 1
  | .eq, .up => q + 1
  | .eq, .toEven => q + q % 2

end TileWorld.Decimal
