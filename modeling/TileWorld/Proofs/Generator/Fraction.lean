import TileWorld.Generator
import TileWorld.Proofs.Binary.Arithmetic

/-! Draws are whole multiples of `2 ^ -24`, and so is what is computed from them as long as it stays
small: such numbers are floats. -/

namespace TileWorld
open Binary

namespace Binary

theorem nearest?_grid {q : ℚ} {n : ℤ} (hq : q = n / 2 ^ 24) (hn : |n| < 2 ^ 53) :
    nearest? q = some q := by
  have hgrid : q = n * 2 ^ (-24 : ℤ) := by
    rw [hq, zpow_neg, div_eq_mul_inv]
    rfl
  rw [hgrid]
  exact nearest?_eq_some hn (by norm_num) (by norm_num)

end Binary

namespace Generator

def numerator (x : UInt32) : ℕ := x.toNat % 2 ^ 24

theorem numerator_lt (x : UInt32) : numerator x < 2 ^ 24 := Nat.mod_lt _ (by norm_num)

theorem value?_fraction (x : UInt32) : value? (fraction x) = some ((numerator x : ℚ) / 2 ^ 24) := by
  have hmask : (x &&& 0xFFFFFF).toNat = numerator x :=
    (UInt32.toNat_and _ _).trans (Nat.and_two_pow_sub_one_eq_mod x.toNat 24)
  have hnum := value?_toFloat (x &&& 0xFFFFFF)
  have hden : value? 16777216.0 = some (2 ^ 24) := by
    have hexact : Decimal.exact 16777216.0 = .finite false (2 ^ 52) (-28) := by decide +kernel
    rw [value?_of_exact hexact]
    norm_num
  have hlt : |(numerator x : ℤ)| < 2 ^ 53 := by
    have := numerator_lt x
    rw [Nat.abs_cast]
    omega
  rw [fraction, value?_div hnum hden (by norm_num), hmask]
  exact nearest?_grid rfl hlt

/-- The largest draw is short of one by its unit. -/
theorem exists_value?_fraction (x : UInt32) :
    ∃ d, value? (fraction x) = some d ∧ 0 ≤ d ∧ d ≤ 1 - 1 / 2 ^ 24 := by
  have hlt : numerator x + 1 ≤ 2 ^ 24 := numerator_lt x
  have hlt' : (numerator x : ℚ) + 1 ≤ 2 ^ 24 := by exact_mod_cast hlt
  refine ⟨_, value?_fraction x, by positivity, ?_⟩
  rw [div_le_iff₀ (by positivity), sub_mul, one_div, inv_mul_cancel₀ (by positivity), one_mul]
  linarith

end Generator

end TileWorld
