import TileWorld.Decimal.Exact
import TileWorld.Proofs.Binary.Normalize

/-! The number that a float stands for. A canonical float is packed to the bits of that number, or
to infinity when it is too large. -/

namespace TileWorld.Binary
open Float.Model Float.Model.UnpackedFloat

/-- The number that a float stands for, if it is finite. -/
def value? (x : Float) : Option ℚ :=
  match Decimal.exact x with
  | .finite negative m e => some (signed (if negative then .negative else .positive) (m * 2 ^ e))
  | _ => none

theorem value?_of_exact {x : Float} {m : ℕ} {e : ℤ} (h : Decimal.exact x = .finite false m e) :
    value? x = some ((m : ℚ) * 2 ^ e) := by
  rw [value?, h]
  rfl

theorem value?_zero : value? 0 = some 0 := by
  have hexact : Decimal.exact 0 = .finite false 0 (-1074) := by decide +kernel
  rw [value?_of_exact hexact, Nat.cast_zero, zero_mul]

theorem value?_one : value? 1 = some 1 := by
  have hexact : Decimal.exact 1 = .finite false (2 ^ 52) (-52) := by decide +kernel
  rw [value?_of_exact hexact, zpow_neg]
  norm_num

theorem value?_two : value? 2 = some 2 := by
  have hexact : Decimal.exact 2 = .finite false (2 ^ 52) (-51) := by decide +kernel
  rw [value?_of_exact hexact]
  norm_num

def unpacked? : UnpackedFloat → Option ℚ
  | .zero _ => some 0
  | .finite s m e _ => some (signed s (m * 2 ^ e))
  | _ => none

/-- The number that a sign, a biased exponent and a fraction stand for. -/
def fields? (s : Sign) (biased fraction : ℕ) : Option ℚ :=
  if biased = 2047 then none
  else if biased = 0 then some (signed s (fraction * 2 ^ (-1074 : ℤ)))
  else some (signed s ((2 ^ 52 + fraction : ℕ) * 2 ^ ((biased : ℤ) - 1075)))

theorem signed_zero (s : Sign) : signed s 0 = 0 := by
  cases s with
  | negative => exact neg_zero
  | positive => rfl

theorem toNat_implicit (m : BitVec 52) : (1#1 ++ m).toNat = 2 ^ 52 + m.toNat := by
  rw [BitVec.toNat_append, ← Nat.shiftLeft_add_eq_or_of_lt m.isLt, Nat.shiftLeft_eq]
  rfl

section
variable (b : BitVec 64)

theorem toNat_unpackMantissa :
    (@unpackMantissa Format.binary64 b).toNat = b.toNat % 2 ^ 52 := by
  simp [unpackMantissa, BitVec.extractLsb_toNat]

theorem toNat_unpackExponent :
    (@unpackExponent Format.binary64 b).toNat = b.toNat / 2 ^ 52 % 2 ^ 11 := by
  simp [unpackExponent, BitVec.extractLsb_toNat, Nat.shiftRight_eq_div_pow]

theorem ofBitVec_unpackSign :
    Sign.ofBitVec (@unpackSign Format.binary64 b) =
      if b.toNat / 2 ^ 63 == 1 then .negative else .positive := by
  have hb : b.toNat < 2 ^ 64 := b.isLt
  have hzero : @unpackSign Format.binary64 b = 0#1 ↔ ¬ b.toNat / 2 ^ 63 = 1 := by
    rw [← BitVec.toNat_inj]
    simp [unpackSign, BitVec.extractLsb_toNat, Nat.shiftRight_eq_div_pow]
    omega
  by_cases h : b.toNat / 2 ^ 63 = 1
  · rw [Sign.ofBitVec, if_neg (by rwa [hzero, not_not]), if_pos (beq_iff_eq.2 h)]
  · rw [Sign.ofBitVec, if_pos (hzero.2 h), if_neg (by rwa [beq_iff_eq])]

/-- The fields that a float is unpacked from tell its number, and it is unpacked canonically. -/
theorem unpack_spec :
    unpacked? (UnpackedFloat.unpack Format.binary64 b) =
        fields? (Sign.ofBitVec (@unpackSign Format.binary64 b))
          (@unpackExponent Format.binary64 b).toNat
          (@unpackMantissa Format.binary64 b).toNat ∧
      (unpacked? (UnpackedFloat.unpack Format.binary64 b) ≠ none →
        Canonical (UnpackedFloat.unpack Format.binary64 b)) := by
  obtain ⟨e, he⟩ : ∃ e : BitVec 11, @unpackExponent Format.binary64 b = e := ⟨_, rfl⟩
  obtain ⟨m, hm⟩ : ∃ m : BitVec 52, @unpackMantissa Format.binary64 b = m := ⟨_, rfl⟩
  simp only [UnpackedFloat.unpack, he, hm]
  have hones : e = -1#11 ↔ e.toNat = 2047 := BitVec.toNat_inj.symm
  have hzero : e = 0#11 ↔ e.toNat = 0 := BitVec.toNat_inj.symm
  have hmzero : m = 0#52 ↔ m.toNat = 0 := BitVec.toNat_inj.symm
  have hlt : m.toNat < 2 ^ 52 := m.isLt
  rw [fields?]
  -- infinite or no number, then subnormal or zero, then normal with its implicit digit
  by_cases h₁ : e.toNat = 2047
  · rw [if_pos h₁, if_pos (hones.2 h₁)]
    split_ifs <;> exact ⟨rfl, fun h => absurd rfl h⟩
  rw [if_neg h₁, if_neg (mt hones.1 h₁)]
  by_cases h₂ : e.toNat = 0
  · rw [if_pos h₂, if_pos (hzero.2 h₂), h₂]
    by_cases h₃ : m.toNat = 0
    · rw [dif_pos (hmzero.2 h₃), h₃, Nat.cast_zero, zero_mul, signed_zero]
      exact ⟨rfl, fun _ => trivial⟩
    · rw [dif_neg (mt hmzero.1 h₃)]
      exact ⟨rfl, fun _ => ⟨by omega, le_rfl, Or.inr rfl⟩⟩
  · have hbias :
        ((Format.binary64.exponentBias : ℤ) + Format.binary64.mantissaBitsWithoutImplicit) = 1075 :=
      rfl
    have himplicit := toNat_implicit m
    rw [if_neg h₂, if_neg (mt hzero.1 h₂)]
    refine ⟨?_, fun _ => ⟨?_, ?_, Or.inl ?_⟩⟩
    · rw [unpacked?, himplicit, hbias]
    · rw [himplicit]
      omega
    · rw [hbias]
      omega
    · rw [himplicit]
      omega

end

theorem value?_eq_fields (x : Float) :
    value? x = fields? (if x.toBits.toNat / 2 ^ 63 == 1 then .negative else .positive)
      (x.toBits.toNat / 2 ^ 52 % 2 ^ 11) (x.toBits.toNat % 2 ^ 52) := by
  unfold value? Decimal.exact fields?
  simp only [Nat.pow_eq]
  by_cases h₁ : x.toBits.toNat / 2 ^ 52 % 2 ^ 11 = 2047
  · rw [if_pos h₁, if_pos h₁]
    split_ifs <;> rfl
  rw [if_neg h₁, if_neg h₁]
  by_cases h₂ : x.toBits.toNat / 2 ^ 52 % 2 ^ 11 = 0
  · rw [if_pos h₂, if_pos h₂]
    rfl
  · have he : Decimal.leastExponent + (x.toBits.toNat / 2 ^ 52 % 2 ^ 11 - 1 : ℕ) =
        ((x.toBits.toNat / 2 ^ 52 % 2 ^ 11 : ℕ) : ℤ) - 1075 := by
      rw [Decimal.leastExponent]
      omega
    rw [if_neg h₂, if_neg h₂, ← he]
    rfl

theorem value?_eq (x : Float) : value? x = unpacked? x.toModel.unpack := by
  rw [value?_eq_fields, Float.Model.unpack, (unpack_spec _).1, ofBitVec_unpackSign,
    toNat_unpackExponent, toNat_unpackMantissa]
  rfl

theorem rational_of_unpacked? {f : UnpackedFloat} {a : ℚ} (h : unpacked? f = some a) :
    rational f = a := by
  cases f with
  | zero s => exact Option.some.inj h
  | finite s m e hm => exact Option.some.inj h
  | infinity s => cases h
  | notANumber => cases h

theorem canonical_of_value? {x : Float} {a : ℚ} (h : value? x = some a) :
    Canonical x.toModel.unpack ∧ rational x.toModel.unpack = a := by
  rw [value?_eq] at h
  refine ⟨(unpack_spec _).2 ?_, rational_of_unpacked? h⟩
  exact fun hnone => Option.some_ne_none a (h.symm.trans hnone)

theorem unpacked?_packComponents (s : Sign) (e : BitVec 11) (m : BitVec 52) :
    unpacked? (UnpackedFloat.unpack Format.binary64 (packComponents Format.binary64 s e m)) =
      fields? s e.toNat m.toNat := by
  rw [(unpack_spec _).1, unpackSign_packComponents, unpackExponent_packComponents,
    unpackMantissa_packComponents, Sign.ofBitVec_toBitVec]

theorem unpack_pack_of_none {f : UnpackedFloat} (h : unpacked? f = none) :
    UnpackedFloat.unpack Format.binary64 (UnpackedFloat.pack Format.binary64 f) = f := by
  cases f with
  | zero s => cases h
  | finite s m e hm => cases h
  | infinity s => cases s <;> rfl
  | notANumber => rfl

/-- A result that is infinite, or no number, is not changed by packing. -/
theorem unpack_eq_of_none {f g : UnpackedFloat} (h : f = g) (hg : unpacked? g = none) :
    (Float.Model.pack f).unpack = g := by
  rw [h]
  exact unpack_pack_of_none hg

theorem abs_signed (s : Sign) {q : ℚ} (hq : 0 ≤ q) : |signed s q| = q := by
  cases s with
  | negative => exact (abs_neg q).trans (abs_of_nonneg hq)
  | positive => exact abs_of_nonneg hq

theorem biased_eq (e : ℤ) :
    (e + Format.binary64.exponentBias + Format.binary64.mantissaBitsWithoutImplicit).toNat =
      (e + 1075).toNat := by
  change (e + (1023 : ℕ) + (52 : ℕ)).toNat = _
  omega

theorem unpacked?_pack_finite {s : Sign} {m : ℕ} {e : ℤ} {hm : 0 < m}
    (hc : Canonical (.finite s m e hm)) (he : e ≤ 971) :
    unpacked? (UnpackedFloat.unpack Format.binary64
      (UnpackedFloat.pack Format.binary64 (.finite s m e hm))) = some (signed s (m * 2 ^ e)) := by
  obtain ⟨hlt, hleast, hor⟩ := hc
  have hbiased := biased_eq e
  have hfits : ¬ 2 ^ Format.binary64.exponentBits ≤ (e + 1075).toNat + 1 := by
    change ¬ 2 ^ 11 ≤ _
    omega
  have hdigits : m.log2 + 1 = Format.binary64.mantissaBits ↔ 2 ^ 52 ≤ m := by
    rw [← Nat.le_log2 hm.ne']
    have := (Nat.log2_lt hm.ne').2 hlt
    change m.log2 + 1 = 53 ↔ _
    omega
  rw [UnpackedFloat.pack]
  simp only [hbiased]
  rw [if_neg hfits]
  by_cases hn : 2 ^ 52 ≤ m
  · -- the leading digit is cut off, and put back when the mantissa is unpacked
    have hexponent : (BitVec.ofNat 11 (e + 1075).toNat).toNat = (e + 1075).toNat :=
      Nat.mod_eq_of_lt (by omega)
    have hmantissa : 2 ^ 52 + (BitVec.ofNat 52 m).toNat = m := by
      rw [BitVec.toNat_ofNat]
      omega
    have hback : ((e + 1075).toNat : ℤ) - 1075 = e := by omega
    rw [if_pos (hdigits.2 hn), unpacked?_packComponents, fields?, hexponent, if_neg (by omega),
      if_neg (by omega), hmantissa, hback]
  · have hmantissa : (BitVec.ofNat 52 m).toNat = m := Nat.mod_eq_of_lt (by omega)
    rw [if_neg (mt hdigits.1 hn), unpacked?_packComponents, fields?, hmantissa, hor.resolve_left hn]
    rfl

/-- Packing a float that is rounded already, whose exponent may be too large. -/
theorem unpacked?_pack {f : UnpackedFloat} {q : ℚ} (h : RoundsTo f q) :
    unpacked? (Float.Model.pack f).unpack = nearest? q := by
  change unpacked? (UnpackedFloat.unpack Format.binary64 (UnpackedFloat.pack Format.binary64 f)) = _
  obtain ⟨hc, hq⟩ := h
  rw [nearest?, ← hq]
  cases f with
  | infinity s => exact hc.elim
  | notANumber => exact hc.elim
  | zero s =>
    have habs : |rational (.zero s)| < 2 ^ 1024 := by norm_num [rational]
    have hfields : fields? s 0 0 = some (signed s ((0 : ℕ) * 2 ^ (-1074 : ℤ))) := rfl
    rw [UnpackedFloat.pack, packedZero, unpacked?_packComponents, if_pos habs]
    refine hfields.trans ?_
    rw [Nat.cast_zero, zero_mul, signed_zero]
    rfl
  | finite s m e hm =>
    rw [rational, abs_signed s (by positivity)]
    by_cases he : e ≤ 971
    · rw [if_pos (mul_zpow_lt hc.1 he), unpacked?_pack_finite hc he]
    · have hge := le_mul_zpow (hc.2.2.resolve_right (by omega)) (by omega : 972 ≤ e)
      have hlarge : 2 ^ Format.binary64.exponentBits ≤ (e + 1075).toNat + 1 := by
        change 2 ^ 11 ≤ _
        omega
      have hbiased := biased_eq e
      rw [if_neg (not_lt.2 hge), UnpackedFloat.pack]
      simp only [hbiased, if_pos hlarge]
      rw [packedInfinity, unpacked?_packComponents]
      rfl

end TileWorld.Binary
