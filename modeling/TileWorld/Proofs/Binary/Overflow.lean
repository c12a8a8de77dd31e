import TileWorld.Proofs.Binary.Whole

/-! Results that are too large for a float. They are infinite, with the sign of the exact result.
Arithmetic on numbers gives numbers or infinities; what is no number comes of infinities only. -/

namespace TileWorld.Binary
open Float.Model Float.Model.UnpackedFloat

theorem isNaN_eq_false_iff {x : Float} : x.isNaN = false ↔ x.toModel.unpack ≠ .notANumber := by
  change x.toModel.unpack.isNaN = false ↔ _
  cases x.toModel.unpack with
  | notANumber => exact ⟨nofun, fun h => absurd rfl h⟩
  | _ => exact ⟨nofun, fun _ => rfl⟩

/-- A float is a number, infinite, or no number. -/
theorem number_or (x : Float) : (∃ q, value? x = some q) ∨
    (∃ s, x.toModel.unpack = .infinity s) ∨ x.toModel.unpack = .notANumber := by
  rw [value?_eq]
  cases x.toModel.unpack with
  | zero s => exact Or.inl ⟨_, rfl⟩
  | finite s m e hm => exact Or.inl ⟨_, rfl⟩
  | infinity s => exact Or.inr (Or.inl ⟨s, rfl⟩)
  | notANumber => exact Or.inr (Or.inr rfl)

theorem isNaN_of_value? {x : Float} {q : ℚ} (h : value? x = some q) : x.isNaN = false := by
  rw [isNaN_eq_false_iff]
  intro hnan
  rw [value?_eq, hnan] at h
  cases h

theorem isNaN_of_infinity {x : Float} {s : Sign} (h : x.toModel.unpack = .infinity s) :
    x.isNaN = false := by
  rw [isNaN_eq_false_iff, h]
  nofun

/-- The sign of a number, with zero among the positive ones. -/
def signOf (q : ℚ) : Sign := if q < 0 then .negative else .positive

/-- Rounding keeps the sign. -/
theorem signOf_eq {q a : ℚ} {s : Sign} (ha : 0 < a) (h : signed s a = nearest q) :
    signOf q = s := by
  unfold signOf
  split
  · next hneg =>
    have hle : signed s a ≤ 0 := by
      rw [h, nearest, if_neg (not_le.2 hneg)]
      exact neg_nonpos.2 (nearestPositive_nonneg (by linarith))
    cases s with
    | negative => rfl
    | positive => exact absurd hle (not_le.2 ha)
  · next hnonneg =>
    have hle : 0 ≤ signed s a := by
      rw [h, nearest_of_nonneg (not_lt.1 hnonneg)]
      exact nearestPositive_nonneg (not_lt.1 hnonneg)
    cases s with
    | negative => exact absurd hle (not_le.2 (neg_lt_zero.2 ha))
    | positive => rfl

theorem unpack_pack_of_overflow {f : UnpackedFloat} {q : ℚ} (h : RoundsTo f q)
    (hq : nearest? q = none) : (Float.Model.pack f).unpack = .infinity (signOf q) := by
  have hlarge : ¬ |nearest q| < 2 ^ 1024 := by
    intro hlt
    rw [nearest?_eq hlt] at hq
    cases hq
  obtain ⟨hc, hrational⟩ := h
  rcases hc.shape with ⟨s, rfl⟩ | ⟨s, m, e, hm, rfl⟩
  · rw [← hrational, rational_zero, abs_zero] at hlarge
    exact absurd (by positivity) hlarge
  · have hpos : (0 : ℚ) < m * 2 ^ e := by positivity
    rw [← hrational, rational, abs_signed s hpos.le] at hlarge
    have he : 972 ≤ e := by
      by_contra hlt
      exact hlarge (mul_zpow_lt hc.1 (by omega))
    have hsign : signOf q = s := signOf_eq hpos hrational
    have hbiased := biased_eq e
    have hfits : 2 ^ Format.binary64.exponentBits ≤ (e + 1075).toNat + 1 := by
      change 2 ^ 11 ≤ _
      omega
    rw [hsign]
    change UnpackedFloat.unpack Format.binary64 (UnpackedFloat.pack Format.binary64 _) = _
    rw [UnpackedFloat.pack]
    simp only [hbiased, if_pos hfits]
    cases s <;> rfl

theorem unpack_pack_ne_notANumber {f : UnpackedFloat} {q : ℚ} (h : RoundsTo f q) :
    (Float.Model.pack f).unpack ≠ .notANumber := by
  intro hnan
  have hvalue := unpacked?_pack h
  rw [hnan] at hvalue
  rw [unpack_pack_of_overflow h hvalue.symm] at hnan
  cases hnan

theorem unpack_natToFloat_of_overflow {n : ℕ} (hn : 2 ^ 53 ≤ n) (h : nearest? n = none) :
    n.toFloat.toModel.unpack = .infinity .positive := by
  have hpos : n ≠ 0 := by
    rintro rfl
    norm_num at hn
  have hsign : signOf n = .positive := if_neg (not_lt.2 (Nat.cast_nonneg n))
  rw [natToFloat_of_le hn, unpack_pack_of_overflow (roundsTo_ofScientific hpos) h, hsign]

section
variable {x y z : Float} {a b : ℚ}

theorem lt_iff_unpack : x < y ↔
    UnpackedFloat.compare x.toModel.unpack y.toModel.unpack = some .lt := by
  change decide (x.toModel.unpack.lt y.toModel.unpack = true) = true ↔ _
  rw [decide_eq_true_eq, UnpackedFloat.lt, beq_iff_eq]

protected theorem le_of_lt (h : x < y) : x ≤ y := by
  rw [lt_iff_unpack] at h
  change decide (x.toModel.unpack.le y.toModel.unpack = true) = true
  rw [decide_eq_true_eq, UnpackedFloat.le, h]
  rfl

theorem lt_infinity_iff (hx : value? x = some a) {s : Sign}
    (hy : y.toModel.unpack = .infinity s) : x < y ↔ s = .positive := by
  rw [lt_iff_unpack, hy]
  rcases (canonical_of_value? hx).1.shape with ⟨s', h⟩ | ⟨s', m, e, hm, h⟩ <;> rw [h] <;>
    cases s <;> simp [UnpackedFloat.compare]

/-- Nothing else is as small as the negative infinity. -/
theorem unpack_of_le_negative_infinity (hy : y.toModel.unpack = .infinity .negative) (h : x ≤ y) :
    x.toModel.unpack = .infinity .negative := by
  replace h : x.toModel.unpack.le y.toModel.unpack = true := of_decide_eq_true h
  rw [hy] at h
  cases hx : x.toModel.unpack with
  | infinity s =>
    rw [hx] at h
    cases s with
    | negative => rfl
    | positive => cases h
  | _ =>
    rw [hx] at h
    cases h

theorem isNaN_of_le (h : x ≤ y) : y.isNaN = false := by
  replace h : x.toModel.unpack.le y.toModel.unpack = true := of_decide_eq_true h
  rw [isNaN_eq_false_iff]
  intro hnan
  rw [hnan] at h
  cases hx : x.toModel.unpack <;> rw [hx] at h <;> cases h

/-- The floats that are compared with the number may be infinite. -/
protected theorem lt_of_lt_of_le (hx : value? x = some a) (hxy : x < y) (hyz : y ≤ z) : x < z := by
  rcases number_or z with ⟨c, hc⟩ | ⟨s, hs⟩ | hnan
  · obtain ⟨b, hb⟩ := exists_value?_of_le hx hc (Binary.le_of_lt hxy) hyz
    exact (lt_iff hx hc).2 (((lt_iff hx hb).1 hxy).trans_le ((le_iff hb hc).1 hyz))
  · rw [lt_infinity_iff hx hs]
    cases s with
    | positive => rfl
    | negative => exact (lt_infinity_iff hx (unpack_of_le_negative_infinity hs hyz)).1 hxy
  · exact absurd hnan (isNaN_eq_false_iff.1 (isNaN_of_le hyz))

theorem unpack_sub_of_infinity {s : Sign} (hx : x.toModel.unpack = .infinity s)
    (hy : value? y = some b) : (x - y).toModel.unpack = .infinity s := by
  have hsub :
      UnpackedFloat.sub Format.binary64 x.toModel.unpack y.toModel.unpack = .infinity s := by
    rw [hx]
    rcases (canonical_of_value? hy).1.shape with ⟨s', h⟩ | ⟨s', m, e, hm, h⟩ <;> rw [h] <;> rfl
  exact unpack_eq_of_none hsub rfl

/-- Zero times infinity is no number. -/
theorem unpack_mul_of_infinity (hx : value? x = some a) (ha : 0 ≤ a)
    (hy : y.toModel.unpack = .infinity .positive) :
    (x * y).toModel.unpack = .infinity .positive ∨ (x * y).toModel.unpack = .notANumber := by
  obtain ⟨hf, hrational⟩ := canonical_of_value? hx
  have hmul : ∃ f, UnpackedFloat.mul Format.binary64 x.toModel.unpack y.toModel.unpack = f ∧
      unpacked? f = none ∧ (f = .infinity .positive ∨ f = .notANumber) := by
    rw [hy]
    rcases hf.shape with ⟨s, h⟩ | ⟨s, m, e, hm, h⟩
    · rw [h]
      exact ⟨_, rfl, rfl, Or.inr rfl⟩
    · rw [h] at hrational ⊢
      have hpos : (0 : ℚ) < m * 2 ^ e := by positivity
      cases s with
      | negative => exact absurd ha (not_le.2 (hrational ▸ neg_lt_zero.2 hpos))
      | positive => exact ⟨_, rfl, rfl, Or.inl rfl⟩
  obtain ⟨f, hf, hnone, hor⟩ := hmul
  have hunpack : (x * y).toModel.unpack = f := unpack_eq_of_none hf hnone
  rwa [hunpack]

theorem isNaN_add (hx : value? x = some a) (hy : y.isNaN = false) : (x + y).isNaN = false := by
  cases hvalue : value? y with
  | some b =>
    obtain ⟨hf, -⟩ := canonical_of_value? hx
    obtain ⟨hg, -⟩ := canonical_of_value? hvalue
    exact isNaN_eq_false_iff.2 (unpack_pack_ne_notANumber (add_spec hf hg))
  | none =>
    rw [isNaN_eq_false_iff, unpack_add_of_none_right hx hvalue]
    exact isNaN_eq_false_iff.1 hy

/-- What zero and a float add up to is equal to the float, though its zero may have another sign. -/
theorem zero_add_beq (hx : x.isNaN = false) : (0 + x == x) = true := by
  rcases zero_add_cases x with ⟨q, hq, hsum⟩ | hsum
  · exact (beq_iff hsum hq).2 rfl
  · change (0 + x).toModel.unpack.beq x.toModel.unpack = true
    rw [hsum]
    rcases number_or x with ⟨q, hq⟩ | ⟨s, hs⟩ | hnan
    · exact (beq_iff hq hq).2 rfl
    · rw [hs]
      cases s <;> rfl
    · exact absurd hnan (isNaN_eq_false_iff.1 hx)

/-- What is no number stays so when it is multiplied. -/
theorem isNaN_of_mul (h : (x * y).isNaN = false) : x.isNaN = false := by
  rw [isNaN_eq_false_iff] at h ⊢
  intro hnan
  have hmul : UnpackedFloat.mul Format.binary64 x.toModel.unpack y.toModel.unpack =
      .notANumber := by
    rw [hnan]
    cases y.toModel.unpack <;> rfl
  exact h (unpack_eq_of_none hmul rfl)

theorem isNaN_of_neg (h : (-x).isNaN = false) : x.isNaN = false := by
  rw [isNaN_eq_false_iff] at h ⊢
  intro hnan
  have hneg : x.toModel.unpack.neg = .notANumber := by rw [hnan]; rfl
  exact h (unpack_eq_of_none hneg rfl)

theorem isNaN_mul (hx : x.isNaN = false) (hy : value? y = some b) (hb : b ≠ 0) :
    (x * y).isNaN = false := by
  obtain ⟨hg, hrational⟩ := canonical_of_value? hy
  rcases number_or x with ⟨a, ha⟩ | ⟨s, hs⟩ | hnan
  · obtain ⟨hf, -⟩ := canonical_of_value? ha
    exact isNaN_eq_false_iff.2 (unpack_pack_ne_notANumber (mul_spec hf hg))
  · have hmul : ∃ s', UnpackedFloat.mul Format.binary64 x.toModel.unpack y.toModel.unpack =
        .infinity s' := by
      rw [hs]
      rcases hg.shape with ⟨s', h⟩ | ⟨s', m, e, hm, h⟩
      · rw [h] at hrational
        exact absurd hrational.symm hb
      · rw [h]
        exact ⟨_, rfl⟩
    obtain ⟨s', hs'⟩ := hmul
    apply isNaN_of_infinity (s := s')
    exact unpack_eq_of_none hs' rfl
  · exact absurd hnan (isNaN_eq_false_iff.1 hx)

end

end TileWorld.Binary
