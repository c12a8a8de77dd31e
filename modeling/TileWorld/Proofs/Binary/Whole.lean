import TileWorld.Proofs.Binary.Truncate

/-! Whole numbers that are turned into floats, and what the value of a float determines: whether it
is finite, and unless it is zero the float itself. -/

namespace TileWorld.Binary
open Float.Model Float.Model.UnpackedFloat

theorem isFinite_iff (x : Float) : x.isFinite = true ↔ ∃ q, value? x = some q := by
  rw [value?_eq]
  change x.toModel.unpack.isFinite = true ↔ _
  cases x.toModel.unpack with
  | zero s => exact ⟨fun _ => ⟨_, rfl⟩, fun _ => rfl⟩
  | finite s m e hm => exact ⟨fun _ => ⟨_, rfl⟩, fun _ => rfl⟩
  | infinity s => exact ⟨nofun, nofun⟩
  | notANumber => exact ⟨nofun, nofun⟩

theorem isInf_eq_false {x : Float} {q : ℚ} (h : value? x = some q) : x.isInf = false := by
  rw [value?_eq] at h
  change x.toModel.unpack.isInf = false
  cases hu : x.toModel.unpack with
  | infinity s =>
    rw [hu] at h
    cases h
  | zero s => rfl
  | finite s m e hm => rfl
  | notANumber => rfl

theorem value?_toFloat_uInt64 (n : UInt64) : value? n.toFloat = nearest? n.toNat := by
  have hround : RoundsTo (UnpackedFloat.ofUInt64 Format.binary64 n) n.toNat := by
    have hspec := normalize_spec n.toNat 0 .positive
    rw [zpow_zero, mul_one, Int.cast_natCast] at hspec
    exact hspec
  rw [value?_eq]
  exact unpacked?_pack hround

theorem value?_toFloat_of_lt {n : ℕ} (hn : n < 2 ^ 64) :
    value? n.toUInt64.toFloat = nearest? n := by
  have hsize : n.toUInt64.toNat = n := UInt64.toNat_ofNat_of_lt' hn
  rw [value?_toFloat_uInt64, hsize]

theorem nearest?_natCast_of_lt {n : ℕ} (hn : n < 2 ^ 53) : nearest? n = some (n : ℚ) := by
  have hlt : |(n : ℤ)| < 2 ^ 53 := by
    rw [Nat.abs_cast]
    exact_mod_cast hn
  have hexact := nearest?_eq_some (e := 0) hlt (by norm_num) (by norm_num)
  rwa [zpow_zero, mul_one, Int.cast_natCast] at hexact

/-- A number is brought to 53 binary places more, which it does not need, and rounded once. -/
theorem roundsTo_ofScientific {n : ℕ} (hn : n ≠ 0) :
    RoundsTo (UnpackedFloat.ofScientific Format.binary64 n 0) n := by
  have hshift : n <<< 53 * 10 ^ 0 = n * 2 ^ 53 := by
    rw [Nat.shiftLeft_eq, pow_zero, mul_one]
  have hvalue : ((n <<< 53 * 10 ^ 0 : ℕ) : ℚ) * 2 ^ (-53 + 0 : ℤ) = n := by
    rw [hshift]
    push_cast
    rw [mul_assoc]
    norm_num
  have hle : -53 + 0 ≤ spacing (((n <<< 53 * 10 ^ 0 : ℕ) : ℚ) * 2 ^ (-53 + 0 : ℤ)) :=
    le_spacing (Or.inl (by
      have hpow : 2 ^ 53 ≤ n * 2 ^ 53 := Nat.le_mul_of_pos_left _ (Nat.pos_of_ne_zero hn)
      rw [hshift]
      exact le_trans (by norm_num) hpow))
  have hspec := roundWithAccuracy_spec .positive (by rw [hvalue]; positivity)
    (tells_mul_zpow (n <<< 53 * 10 ^ 0) (-53 + 0)) hle
  rw [hvalue] at hspec
  have hsmall : ¬(0 : ℤ) < -(2 ^ Format.binary64.exponentBits + n.log2) := by
    have : (0 : ℤ) < 2 ^ Format.binary64.exponentBits := by positivity
    omega
  rw [UnpackedFloat.ofScientific, dif_neg hn, if_neg (not_lt.2 (by positivity)),
    if_neg hsmall, if_pos le_rfl]
  exact hspec

theorem natToFloat_of_le {n : ℕ} (hn : 2 ^ 53 ≤ n) : n.toFloat.toModel.unpack =
    (Float.Model.pack (UnpackedFloat.ofScientific Format.binary64 n 0)).unpack := by
  change (Float.ofScientific n false 0).toModel.unpack = _
  unfold Float.ofScientific
  rw [dif_neg fun h => absurd h.1 (not_lt.2 hn)]
  rfl

/-- A small number is multiplied by the first power of ten, which is one. -/
theorem value?_natToFloat_of_lt {n : ℕ} (hn : n < 2 ^ 53) : value? n.toFloat = some (n : ℚ) := by
  have hexact : Decimal.exact (.ofBits 4607182418800017408) = .finite false (2 ^ 52) (-52) := by
    decide +kernel
  have hone : value? (.ofBits 4607182418800017408) = some 1 := by
    rw [value?_of_exact hexact, zpow_neg]
    norm_num
  have hvalue : value? n.toUInt64.toFloat = some (n : ℚ) := by
    rw [value?_toFloat_of_lt (by omega), nearest?_natCast_of_lt hn]
  have hmul := value?_mul hvalue hone
  rw [mul_one, nearest?_natCast_of_lt hn] at hmul
  change value? (Float.ofScientific n false 0) = _
  unfold Float.ofScientific
  rw [dif_pos ⟨hn, by norm_num⟩]
  exact hmul

theorem value?_natToFloat (n : ℕ) : value? n.toFloat = nearest? n := by
  rcases lt_or_ge n (2 ^ 53) with hn | hn
  · rw [value?_natToFloat_of_lt hn, nearest?_natCast_of_lt hn]
  · have hpos : n ≠ 0 := by
      rintro rfl
      norm_num at hn
    rw [value?_eq, natToFloat_of_le hn]
    exact unpacked?_pack (roundsTo_ofScientific hpos)

/-- A float has only one mantissa and one exponent. -/
theorem eq_of_mul_zpow_eq {m m' : ℕ} {e e' : ℤ} (hm : m < 2 ^ 53) (hor : 2 ^ 52 ≤ m ∨ e = -1074)
    (he : -1074 ≤ e) (hm' : m' < 2 ^ 53) (hor' : 2 ^ 52 ≤ m' ∨ e' = -1074) (he' : -1074 ≤ e')
    (h : (m : ℚ) * 2 ^ e = m' * 2 ^ e') : m = m' ∧ e = e' := by
  rcases lt_trichotomy e e' with hlt | rfl | hlt
  · exact absurd h (mul_zpow_lt_of_lt hm (hor'.resolve_right (by omega)) hlt).ne
  · rw [mul_left_inj' (by positivity)] at h
    exact ⟨by exact_mod_cast h, rfl⟩
  · exact absurd h (mul_zpow_lt_of_lt hm' (hor.resolve_right (by omega)) hlt).ne'

theorem signed_inj {s s' : Sign} {a b : ℚ} (ha : 0 ≤ a) (hb : 0 < b)
    (h : signed s a = signed s' b) : s = s' ∧ a = b := by
  cases s <;> cases s'
  · exact ⟨rfl, neg_inj.1 h⟩
  · change -a = b at h
    linarith
  · change a = -b at h
    linarith
  · exact ⟨rfl, h⟩

/-- The mantissa and the exponent that the fields of a finite float stand for. -/
theorem fields?_eq_some {s : Sign} {b f : ℕ} (hf : f < 2 ^ 52) {q : ℚ}
    (h : fields? s b f = some q) :
    ∃ (m : ℕ) (e : ℤ), q = signed s (m * 2 ^ e) ∧ m < 2 ^ 53 ∧ (2 ^ 52 ≤ m ∨ e = -1074) ∧
      -1074 ≤ e ∧ f = m % 2 ^ 52 ∧ b = if m < 2 ^ 52 then 0 else (e + 1075).toNat := by
  unfold fields? at h
  split at h
  · cases h
  · split at h
    · next hb =>
      cases h
      exact ⟨f, -1074, rfl, by omega, Or.inr rfl, le_rfl, by omega, by rw [if_pos hf, hb]⟩
    · cases h
      exact ⟨2 ^ 52 + f, b - 1075, rfl, by omega, Or.inl (by omega), by omega, by omega,
        by rw [if_neg (by omega)]; omega⟩

/-- Only the two zeros have the same value. -/
theorem eq_of_value?_eq {x y : Float} {q : ℚ} (hx : value? x = some q) (hy : value? y = some q)
    (hq : q ≠ 0) : x = y := by
  have hx' := x.toBits.toNat_lt
  have hy' := y.toBits.toNat_lt
  rw [value?_eq_fields] at hx hy
  obtain ⟨m, e, hqx, hm, hor, he, hf, hb⟩ := fields?_eq_some (Nat.mod_lt _ (by norm_num)) hx
  obtain ⟨m', e', hqy, hm', hor', he', hf', hb'⟩ := fields?_eq_some (Nat.mod_lt _ (by norm_num)) hy
  have hpos : (0 : ℚ) < m' * 2 ^ e' := by
    rcases Nat.eq_zero_or_pos m' with rfl | h
    · rw [Nat.cast_zero, zero_mul, signed_zero] at hqy
      exact absurd hqy hq
    · positivity
  obtain ⟨hsign, hvalue⟩ := signed_inj (by positivity) hpos (hqx.symm.trans hqy)
  obtain ⟨rfl, rfl⟩ := eq_of_mul_zpow_eq hm hor he hm' hor' he' hvalue
  rw [← Float.toBits_inj, ← UInt64.toNat_inj]
  have hsign' : x.toBits.toNat / 2 ^ 63 = 1 ↔ y.toBits.toNat / 2 ^ 63 = 1 := by
    simp only [beq_iff_eq] at hsign
    split_ifs at hsign with h h' h'
    · exact ⟨fun _ => h', fun _ => h⟩
    · exact ⟨fun hone => absurd hone h, fun hone => absurd hone h'⟩
  omega

theorem eq_zero_of_value? {x : Float} (hx : value? x = some 0) : x = 0.0 ∨ x = -0.0 := by
  have hx' := x.toBits.toNat_lt
  rw [value?_eq_fields] at hx
  obtain ⟨m, e, hq, -, -, -, hf, hb⟩ := fields?_eq_some (Nat.mod_lt _ (by norm_num)) hx
  have hm : m = 0 := by
    rw [eq_comm, ← abs_eq_zero, abs_signed _ (by positivity), mul_eq_zero] at hq
    exact_mod_cast hq.resolve_right (by positivity)
  subst hm
  rw [if_pos (by norm_num)] at hb
  have hbits : x.toBits.toNat = 0 ∨ x.toBits.toNat = 2 ^ 63 := by omega
  rcases hbits with h | h
  · left
    rw [← Float.toBits_inj, ← UInt64.toNat_inj, h]
    decide +kernel
  · right
    rw [← Float.toBits_inj, ← UInt64.toNat_inj, h]
    decide +kernel

end TileWorld.Binary
