import TileWorld.Proofs.Binary.Value

/-! The sign bit of a float, and what floats that are infinite or no number are decoded to. -/

namespace TileWorld.Binary
open Decimal (exact)
open Float.Model Float.Model.UnpackedFloat

/-- The bit that tells the sign, also of zero. -/
def signBit (x : Float) : Bool := x.toBits.toNat.testBit 63

theorem signBit_eq (x : Float) : signBit x = (x.toBits.toNat / Nat.pow 2 63 == 1) := by
  have hlt : x.toBits.toNat < 2 ^ 64 := x.toBits.toNat_lt
  have hsmall : x.toBits.toNat / 2 ^ 63 % 2 = x.toBits.toNat / 2 ^ 63 := by omega
  rw [signBit, Nat.testBit_eq_decide_div_mod_eq, hsmall]
  rfl

theorem exact_of_ones {x : Float} (h : x.toBits.toNat / 2 ^ 52 % 2 ^ 11 = 2047) :
    exact x = if x.toBits.toNat % 2 ^ 52 = 0 then .infinite (signBit x) else .nan := by
  rw [signBit_eq, exact]
  exact if_pos h

theorem ones_of_value? {x : Float} (h : value? x = none) :
    x.toBits.toNat / 2 ^ 52 % 2 ^ 11 = 2047 := by
  rw [value?_eq_fields, fields?] at h
  by_contra hne
  rw [if_neg hne] at h
  split at h <;> cases h

theorem unpack_of_ones {x : Float} (h : x.toBits.toNat / 2 ^ 52 % 2 ^ 11 = 2047) :
    x.toModel.unpack = if x.toBits.toNat % 2 ^ 52 = 0 then
      .infinity (Sign.ofBitVec (@unpackSign Format.binary64 x.toBits.toBitVec))
    else .notANumber := by
  have hones : @unpackExponent Format.binary64 x.toBits.toBitVec = -1#11 :=
    BitVec.toNat_inj.1 ((toNat_unpackExponent _).trans h)
  have hmantissa : x.toBits.toNat % 2 ^ 52 =
      (@unpackMantissa Format.binary64 x.toBits.toBitVec).toNat :=
    (toNat_unpackMantissa _).symm
  change UnpackedFloat.unpack Format.binary64 x.toBits.toBitVec = _
  rw [UnpackedFloat.unpack, if_pos hones, hmantissa]
  exact if_congr BitVec.toNat_inj.symm rfl rfl

theorem exact_of_isInf {x : Float} (h : x.isInf = true) : exact x = .infinite (signBit x) := by
  change x.toModel.unpack.isInf = true at h
  have hnone : value? x = none := by
    rw [value?_eq]
    cases hu : x.toModel.unpack with
    | infinity s => rfl
    | _ => rw [hu] at h; cases h
  have hones := ones_of_value? hnone
  rw [unpack_of_ones hones] at h
  rw [exact_of_ones hones]
  split at h
  · next hzero => rw [if_pos hzero]
  · cases h

theorem exact_of_isNaN {x : Float} (h : x.isNaN = true) : exact x = .nan := by
  change x.toModel.unpack.isNaN = true at h
  have hnone : value? x = none := by
    rw [value?_eq]
    cases hu : x.toModel.unpack with
    | notANumber => rfl
    | _ => rw [hu] at h; cases h
  have hones := ones_of_value? hnone
  rw [unpack_of_ones hones] at h
  rw [exact_of_ones hones]
  split at h
  · cases h
  · next hne => rw [if_neg hne]

theorem signBit_of_exact {x : Float} {negative : Bool} {m : ℕ} {e : ℤ}
    (h : exact x = .finite negative m e) : signBit x = negative := by
  rw [signBit_eq]
  unfold exact at h
  dsimp only at h
  split_ifs at h <;> injection h

/-- A number is decoded to its sign bit and a magnitude. -/
theorem exists_exact_of_value? {x : Float} {q : ℚ} (h : value? x = some q) :
    ∃ m e, exact x = .finite (signBit x) m e ∧
      q = signed (if signBit x then .negative else .positive) (m * 2 ^ e) := by
  unfold value? at h
  split at h
  · next negative m e hexact =>
    rw [signBit_of_exact hexact]
    exact ⟨m, e, hexact, (Option.some.inj h).symm⟩
  · cases h

end TileWorld.Binary
