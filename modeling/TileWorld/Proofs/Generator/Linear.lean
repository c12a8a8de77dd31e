import Mathlib.Data.Nat.Bitwise
import Mathlib.Logic.Function.Iterate
import TileWorld.Generator

/-! Maps of words that carry exclusive or over. Such a map is known from the 32 words that it makes
of the words with a single digit, and those of a high power of it are found by squaring. -/

namespace TileWorld

def Linear (f : UInt32 → UInt32) : Prop := ∀ x y, f (x ^^^ y) = f x ^^^ f y

/-- The images of the words with a single digit, from the lowest digit on. -/
def columns (f : UInt32 → UInt32) : List ℕ :=
  (List.range 32).map fun i => (f (UInt32.ofNat (2 ^ i))).toNat

/-- The exclusive or of the columns at the places where `x` has a digit one. -/
def combine : List ℕ → ℕ → ℕ
  | [], _ => 0
  | column :: rest, x => (x % 2 * column) ^^^ combine rest (x / 2)

/-- The `n`-th power of the map with the given columns at `x`, where `n` has at most so many
digits. -/
def power : (digits : ℕ) → (columns : List ℕ) → (n x : ℕ) → ℕ
  | 0, _, _, x => x
  | d + 1, cs, n, x =>
    power d (cs.map (combine cs)) (n / 2) (if n % 2 = 1 then combine cs x else x)

theorem ofNat_xor (a b : ℕ) : UInt32.ofNat (a ^^^ b) = UInt32.ofNat a ^^^ UInt32.ofNat b := by
  apply UInt32.toNat_inj.1
  rw [UInt32.toNat_xor, UInt32.toNat_ofNat', UInt32.toNat_ofNat', UInt32.toNat_ofNat',
    Nat.xor_mod_two_pow]

theorem mod_two_xor (x : ℕ) : (x % 2) ^^^ (2 * (x / 2)) = x := by
  apply Nat.eq_of_testBit_eq
  intro i
  cases i with
  | zero => simp
  | succ i =>
    have hlow : x % 2 / 2 = 0 := by omega
    rw [Nat.testBit_xor, Nat.testBit_add_one, Nat.testBit_add_one, Nat.testBit_add_one,
      Nat.mul_div_cancel_left _ (by decide : 0 < 2), hlow, Nat.zero_testBit, Bool.false_xor]

theorem xor_lowest_digit (k x : ℕ) : (x % 2 * 2 ^ k) ^^^ (x / 2 * 2 ^ (k + 1)) = x * 2 ^ k := by
  rw [Nat.pow_succ', ← Nat.mul_assoc, Nat.mul_comm (x / 2) 2, ← Nat.shiftLeft_eq,
    ← Nat.shiftLeft_eq, ← Nat.shiftLeft_eq, ← Nat.shiftLeft_xor_distrib, mod_two_xor]

theorem linear_xor_shiftLeft (k : UInt32) : Linear fun x => x ^^^ (x <<< k) := by
  intro x y
  dsimp only
  rw [UInt32.shiftLeft_xor]
  ac_rfl

theorem linear_xor_shiftRight (k : UInt32) : Linear fun x => x ^^^ (x >>> k) := by
  intro x y
  dsimp only
  rw [UInt32.shiftRight_xor]
  ac_rfl

namespace Linear

variable {f : UInt32 → UInt32} (hf : Linear f)
include hf

theorem map_zero : f 0 = 0 := by
  have h := hf 0 0
  rwa [UInt32.xor_self, UInt32.xor_self] at h

theorem comp {f' : UInt32 → UInt32} (hf' : Linear f') : Linear (f ∘ f') := by
  intro x y
  rw [Function.comp_apply, hf', hf]
  rfl

theorem combine_from (n k x : ℕ) (hx : x < 2 ^ n) :
    combine ((List.range n).map fun i => (f (UInt32.ofNat (2 ^ (k + i)))).toNat) x =
      (f (UInt32.ofNat (x * 2 ^ k))).toNat := by
  induction n generalizing k x with
  | zero =>
    rw [Nat.lt_one_iff.1 hx, Nat.zero_mul]
    exact (congrArg UInt32.toNat hf.map_zero).symm
  | succ n ih =>
    have hrest := ih (k + 1) (x / 2) (by omega)
    have hlow : x % 2 * (f (UInt32.ofNat (2 ^ k))).toNat =
        (f (UInt32.ofNat (x % 2 * 2 ^ k))).toNat := by
      rcases Nat.mod_two_eq_zero_or_one x with h | h
      · rw [h, Nat.zero_mul, Nat.zero_mul]
        exact (congrArg UInt32.toNat hf.map_zero).symm
      · rw [h, Nat.one_mul, Nat.one_mul]
    have hshift : (List.range (n + 1)).map (fun i => (f (UInt32.ofNat (2 ^ (k + i)))).toNat) =
        (f (UInt32.ofNat (2 ^ k))).toNat ::
          (List.range n).map fun i => (f (UInt32.ofNat (2 ^ (k + 1 + i)))).toNat := by
      rw [List.range_succ_eq_map, List.map_cons, List.map_map, Nat.add_zero]
      congr 1
      apply List.map_congr_left
      intro i _
      rw [Function.comp_apply, Nat.succ_eq_add_one, Nat.add_right_comm, Nat.add_assoc]
    rw [hshift, combine, hlow, hrest, ← UInt32.toNat_xor, ← hf, ← ofNat_xor, xor_lowest_digit]

theorem combine_columns (x : UInt32) : combine (columns f) x.toNat = (f x).toNat := by
  have h := hf.combine_from 32 0 x.toNat x.toNat_lt
  simp only [Nat.zero_add, pow_zero, Nat.mul_one, UInt32.ofNat_toNat] at h
  exact h

theorem columns_comp_self : columns (f ∘ f) = (columns f).map (combine (columns f)) := by
  conv_rhs => rw [columns, List.map_map]
  apply List.map_congr_left
  intro i _
  exact (hf.combine_columns _).symm

theorem power_columns {d n : ℕ} (hn : n < 2 ^ d) (x : UInt32) :
    power d (columns f) n x.toNat = (f^[n] x).toNat := by
  induction d generalizing f n x with
  | zero =>
    rw [Nat.lt_one_iff.1 hn]
    rfl
  | succ d ih =>
    have hlow : (if n % 2 = 1 then combine (columns f) x.toNat else x.toNat) =
        (f^[n % 2] x).toNat := by
      rcases Nat.mod_two_eq_zero_or_one n with h | h
      · rw [h, if_neg (by decide)]
        rfl
      · rw [h, if_pos rfl, hf.combine_columns]
        rfl
    have hsquare : (f ∘ f)^[n / 2] (f^[n % 2] x) = f^[n] x := by
      have htwo : f ∘ f = f^[2] := rfl
      rw [htwo, ← Function.iterate_mul, ← Function.iterate_add_apply, Nat.div_add_mod]
    rw [power, hlow, ← hf.columns_comp_self, ih (hf.comp hf) (by omega), hsquare]

end Linear

theorem Generator.linear_step : Linear step :=
  (linear_xor_shiftLeft 5).comp ((linear_xor_shiftRight 17).comp (linear_xor_shiftLeft 13))

end TileWorld
