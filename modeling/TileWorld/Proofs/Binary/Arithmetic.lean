import TileWorld.Proofs.Binary.Value

/-! Arithmetic on floats is that of the numbers they stand for, with each result rounded to the
nearest float, and comparing floats compares those numbers. -/

namespace TileWorld.Binary
open Float.Model Float.Model.UnpackedFloat

theorem signed_mul (s s' : Sign) (a b : ℚ) :
    signed (s * s') (a * b) = signed s a * signed s' b := by
  cases s <;> cases s'
  · exact (neg_mul_neg a b).symm
  · exact (neg_mul a b).symm
  · exact (mul_neg a b).symm
  · rfl

theorem signed_div (s s' : Sign) (a b : ℚ) :
    signed (s / s') (a / b) = signed s a / signed s' b := by
  cases s <;> cases s'
  · exact (neg_div_neg_eq a b).symm
  · exact (neg_div b a).symm
  · exact (div_neg a).symm
  · rfl

theorem intCast_apply_mul (s : Sign) (m : ℕ) (a : ℚ) :
    ((s.apply m : ℤ) : ℚ) * a = signed s (m * a) := by
  cases s with
  | negative =>
    change ((-(m : ℤ) : ℤ) : ℚ) * a = -(m * a)
    push_cast
    exact neg_mul _ _
  | positive =>
    change ((m : ℤ) : ℚ) * a = m * a
    rw [Int.cast_natCast]

theorem abs_apply (s : Sign) (m : ℕ) : |s.apply (m : ℤ)| = m := by
  cases s with
  | negative => exact (abs_neg _).trans (Nat.abs_cast m)
  | positive => exact Nat.abs_cast m

theorem log_div_ge {m m' : ℕ} (hm : 0 < m) (hm' : 0 < m') (e e' : ℤ) :
    totalExponent m e - totalExponent m' e' - 1 ≤ Int.log 2 ((m * 2 ^ e : ℚ) / (m' * 2 ^ e')) := by
  have hpow : (2 : ℚ) ^ m.log2 ≤ m := by exact_mod_cast Nat.log2_self_le hm.ne'
  have hpow' : (m' : ℚ) ≤ 2 ^ (m'.log2 + 1) := by exact_mod_cast Nat.lt_log2_self.le
  rw [← Int.zpow_le_iff_le_log (by norm_num) (by positivity), le_div_iff₀ (by positivity)]
  push_cast
  calc (2 : ℚ) ^ (totalExponent m e - totalExponent m' e' - 1) * (m' * 2 ^ e')
      ≤ 2 ^ (totalExponent m e - totalExponent m' e' - 1) * (2 ^ (m'.log2 + 1) * 2 ^ e') := by
        apply mul_le_mul_of_nonneg_left _ (by positivity)
        exact mul_le_mul_of_nonneg_right hpow' (by positivity)
    _ = 2 ^ m.log2 * 2 ^ e := by
      rw [← zpow_natCast, ← zpow_natCast, ← zpow_add₀ (by norm_num), ← zpow_add₀ (by norm_num),
        ← zpow_add₀ (by norm_num)]
      congr 1
      rw [totalExponent, totalExponent]
      push_cast
      ring
    _ ≤ m * 2 ^ e := mul_le_mul_of_nonneg_right hpow (by positivity)

/-- Before it divides, a division appends enough zeros for all digits of the quotient. -/
theorem divCore_spec {m m' : ℕ} (hm : 0 < m) (hm' : 0 < m') (e e' : ℤ) :
    ∃ k t acc, divCore Format.binary64 m e m' e' = (k, t, acc) ∧
      Tells (.ofMantissaAndAccuracy k acc) ((m * 2 ^ e : ℚ) / (m' * 2 ^ e') / 2 ^ t) ∧
      t ≤ spacing ((m * 2 ^ e : ℚ) / (m' * 2 ^ e')) := by
  have hlog := log_div_ge hm hm' e e'
  set T := Format.binary64.targetExponent (totalExponent m e - totalExponent m' e') with hT
  obtain ⟨n, hn⟩ := Int.eq_ofNat_of_zero_le (sub_nonneg.2 (min_le_left (e - e') T))
  refine ⟨_, min (e - e') T, _, rfl, ?_, ?_⟩
  · have hquot : (m * 2 ^ e : ℚ) / (m' * 2 ^ e') / 2 ^ min (e - e') T = (m <<< n : ℕ) / m' := by
      have he : e = e' + min (e - e') T + n := by omega
      rw [Nat.shiftLeft_eq, Nat.cast_mul, Nat.cast_pow, Nat.cast_ofNat, ← zpow_natCast, div_div,
        div_eq_div_iff (by positivity) (by positivity)]
      nth_rewrite 1 [he]
      rw [zpow_add₀ (by norm_num), zpow_add₀ (by norm_num)]
      ring
    rw [hn, hquot]
    exact tells_fraction _ _ hm'
  · rw [hT, targetExponent_eq, spacing]
    omega

theorem Canonical.shape {f : UnpackedFloat} (hf : Canonical f) :
    (∃ s, f = .zero s) ∨ ∃ s m e hm, f = .finite s m e hm := by
  cases f with
  | zero s => exact Or.inl ⟨s, rfl⟩
  | finite s m e hm => exact Or.inr ⟨s, m, e, hm, rfl⟩
  | infinity s => exact hf.elim
  | notANumber => exact hf.elim

theorem rational_zero (s : Sign) : rational (.zero s) = 0 := rfl

theorem Canonical.roundsTo {f : UnpackedFloat} (hf : Canonical f) : RoundsTo f (rational f) := by
  refine ⟨hf, ?_⟩
  rcases hf.shape with ⟨s, rfl⟩ | ⟨s, m, e, hm, rfl⟩
  · simp [rational, nearest, nearestPositive, roundEven]
  · obtain ⟨hlt, he, -⟩ := hf
    have habs : |s.apply (m : ℤ)| < 2 ^ 53 := by
      rw [abs_apply]
      exact_mod_cast hlt
    rw [rational, ← intCast_apply_mul, nearest_eq_self habs he]

theorem Canonical.neg {f : UnpackedFloat} (hf : Canonical f) :
    Canonical f.neg ∧ rational f.neg = -rational f := by
  rcases hf.shape with ⟨s, rfl⟩ | ⟨s, m, e, hm, rfl⟩
  · exact ⟨trivial, neg_zero.symm⟩
  · refine ⟨hf, ?_⟩
    cases s with
    | negative => exact (neg_neg _).symm
    | positive => rfl

/-- Infinities and what is no number stay what they are when a number is added. -/
theorem add_of_none {f g : UnpackedFloat} (hf : unpacked? f = none) (hg : Canonical g) :
    UnpackedFloat.add Format.binary64 f g = f := by
  cases f with
  | zero s => cases hf
  | finite s m e hm => cases hf
  | infinity s => rcases hg.shape with ⟨s', rfl⟩ | ⟨s', m, e, hm, rfl⟩ <;> rfl
  | notANumber => rcases hg.shape with ⟨s', rfl⟩ | ⟨s', m, e, hm, rfl⟩ <;> rfl

theorem add_of_none_right {f g : UnpackedFloat} (hf : Canonical f) (hg : unpacked? g = none) :
    UnpackedFloat.add Format.binary64 f g = g := by
  cases g with
  | zero s => cases hg
  | finite s m e hm => cases hg
  | infinity s => rcases hf.shape with ⟨s', rfl⟩ | ⟨s', m, e, hm, rfl⟩ <;> rfl
  | notANumber => rcases hf.shape with ⟨s', rfl⟩ | ⟨s', m, e, hm, rfl⟩ <;> rfl

section
variable {x y : Float} {a : ℚ}

theorem unpack_add_of_none (hx : value? x = none) (hy : value? y = some a) :
    (x + y).toModel.unpack = x.toModel.unpack := by
  rw [value?_eq] at hx
  have hadd := add_of_none hx (canonical_of_value? hy).1
  exact unpack_eq_of_none hadd hx

theorem unpack_add_of_none_right (hx : value? x = some a) (hy : value? y = none) :
    (x + y).toModel.unpack = y.toModel.unpack := by
  rw [value?_eq] at hy
  have hadd := add_of_none_right (canonical_of_value? hx).1 hy
  exact unpack_eq_of_none hadd hy

theorem value?_add_of_none (hx : value? x = none) (hy : value? y = some a) :
    value? (x + y) = none := by
  rw [value?_eq, unpack_add_of_none hx hy, ← value?_eq, hx]

theorem value?_add_of_none_right (hx : value? x = some a) (hy : value? y = none) :
    value? (x + y) = none := by
  rw [value?_eq, unpack_add_of_none_right hx hy, ← value?_eq, hy]

end

theorem mul_of_none {f g : UnpackedFloat} (hf : unpacked? f = none) :
    unpacked? (UnpackedFloat.mul Format.binary64 f g) = none := by
  cases f with
  | zero s => cases hf
  | finite s m e hm => cases hf
  | infinity s => cases g <;> rfl
  | notANumber => cases g <;> rfl

theorem value?_mul_of_none {x y : Float} (hx : value? x = none) : value? (x * y) = none := by
  rw [value?_eq] at hx
  have hmul := mul_of_none (g := y.toModel.unpack) hx
  rw [value?_eq]
  exact (congrArg unpacked? (unpack_pack_of_none hmul)).trans hmul

theorem sub_of_none {f g : UnpackedFloat} (h : unpacked? f = none ∨ unpacked? g = none) :
    unpacked? (UnpackedFloat.sub Format.binary64 f g) = none := by
  rcases h with h | h
  · cases f with
    | zero s => cases h
    | finite s m e hm => cases h
    | infinity s => cases g with
      | infinity s' => cases s <;> cases s' <;> rfl
      | _ => rfl
    | notANumber => cases g <;> rfl
  · cases g with
    | zero s => cases h
    | finite s m e hm => cases h
    | infinity s => cases f with
      | infinity s' => cases s <;> cases s' <;> rfl
      | _ => rfl
    | notANumber => cases f <;> rfl

theorem value?_sub_of_none {x y : Float} (h : value? x = none ∨ value? y = none) :
    value? (x - y) = none := by
  rw [value?_eq, value?_eq] at h
  have hsub := sub_of_none h
  rw [value?_eq]
  exact (congrArg unpacked? (unpack_pack_of_none hsub)).trans hsub

section
variable {f g : UnpackedFloat} (hf : Canonical f) (hg : Canonical g)
include hf hg

theorem add_spec : RoundsTo (UnpackedFloat.add Format.binary64 f g) (rational f + rational g) := by
  rcases hf.shape with ⟨s, rfl⟩ | ⟨s, m, e, hm, rfl⟩
  · rw [rational_zero, zero_add]
    rcases hg.shape with ⟨s', rfl⟩ | ⟨s', m', e', hm', rfl⟩
    · rw [UnpackedFloat.add]
      split_ifs <;> exact Canonical.roundsTo (f := .zero _) trivial
    · exact hg.roundsTo
  · rcases hg.shape with ⟨s', rfl⟩ | ⟨s', m', e', hm', rfl⟩
    · rw [rational_zero, add_zero]
      exact hf.roundsTo
    · -- both mantissas are brought to the smaller exponent, where their sum is exact
      obtain ⟨k, hk, hvalue⟩ := decreaseExponent_spec m e (min e e')
      obtain ⟨k', hk', hvalue'⟩ := decreaseExponent_spec m' e' (min e e')
      rw [min_eq_right (min_le_left e e')] at hk hvalue
      rw [min_eq_right (min_le_right e e')] at hk' hvalue'
      have hsum : rational (.finite s m e hm) + rational (.finite s' m' e' hm') =
          ((s.apply k + s'.apply k' : ℤ) : ℚ) * 2 ^ min e e' := by
        rw [Int.cast_add, add_mul, intCast_apply_mul, intCast_apply_mul, hvalue, hvalue']
        rfl
      rw [hsum, UnpackedFloat.add, hk, hk']
      exact normalize_spec _ _ _

theorem sub_spec : RoundsTo (UnpackedFloat.sub Format.binary64 f g) (rational f - rational g) := by
  have hsub : UnpackedFloat.sub Format.binary64 f g =
      UnpackedFloat.add Format.binary64 f g.neg := by
    rcases hf.shape with ⟨s, rfl⟩ | ⟨s, m, e, hm, rfl⟩ <;>
      rcases hg.shape with ⟨s', rfl⟩ | ⟨s', m', e', hm', rfl⟩
    · rfl
    · rfl
    · rfl
    · cases s' with
      | negative =>
        refine congrArg (UnpackedFloat.normalize Format.binary64 · (min e e') .positive) ?_
        exact sub_neg_eq_add _ _
      | positive => rfl
  rw [hsub, sub_eq_add_neg, ← hg.neg.2]
  exact add_spec hf hg.neg.1

theorem mul_spec : RoundsTo (UnpackedFloat.mul Format.binary64 f g) (rational f * rational g) := by
  rcases hf.shape with ⟨s, rfl⟩ | ⟨s, m, e, hm, rfl⟩
  · rw [rational_zero, zero_mul]
    rcases hg.shape with ⟨s', rfl⟩ | ⟨s', m', e', hm', rfl⟩ <;>
      exact Canonical.roundsTo (f := .zero _) trivial
  · rcases hg.shape with ⟨s', rfl⟩ | ⟨s', m', e', hm', rfl⟩
    · rw [rational_zero, mul_zero]
      exact Canonical.roundsTo (f := .zero _) trivial
    · have hvalue : rational (.finite s m e hm) * rational (.finite s' m' e' hm') =
          signed (s * s') ((m * m' : ℕ) * 2 ^ (e + e')) := by
        rw [rational, rational, ← signed_mul, Nat.cast_mul, zpow_add₀ (by norm_num)]
        congr 1
        ring
      -- a product of subnormals has few digits, but an exponent far below the least one
      have hdigits : 2 ^ 52 ≤ m * m' ∨ e + e' ≤ -1074 := by
        obtain ⟨-, he, hor⟩ := hf
        obtain ⟨-, he', hor'⟩ := hg
        rcases hor with hn | rfl
        · exact Or.inl (hn.trans (Nat.le_mul_of_pos_right m hm'))
        · rcases hor' with hn' | rfl
          · exact Or.inl (hn'.trans (Nat.le_mul_of_pos_left m' hm))
          · exact Or.inr (by norm_num)
      rw [hvalue]
      have hle := le_spacing hdigits
      exact roundWithAccuracy_spec (s * s') (by positivity) (tells_mul_zpow _ _) hle

theorem div_spec (h0 : rational g ≠ 0) :
    RoundsTo (UnpackedFloat.div Format.binary64 f g) (rational f / rational g) := by
  rcases hg.shape with ⟨s', rfl⟩ | ⟨s', m', e', hm', rfl⟩
  · exact absurd rfl h0
  rcases hf.shape with ⟨s, rfl⟩ | ⟨s, m, e, hm, rfl⟩
  · rw [rational_zero, zero_div]
    exact Canonical.roundsTo (f := .zero _) trivial
  · obtain ⟨k, t, acc, hcore, htells, ht⟩ := divCore_spec hm hm' e e'
    rw [rational, rational, ← signed_div, UnpackedFloat.div, hcore]
    exact roundWithAccuracy_spec (s / s') (by positivity) htells ht

end

theorem mul_zpow_lt_of_lt {m m' : ℕ} {e e' : ℤ} (hm : m < 2 ^ 53) (hm' : 2 ^ 52 ≤ m')
    (he : e < e') : (m : ℚ) * 2 ^ e < m' * 2 ^ e' := by
  have hlt : (m : ℚ) < 2 ^ 53 := by exact_mod_cast hm
  have hge : (2 : ℚ) ^ 52 ≤ m' := by exact_mod_cast hm'
  calc (m : ℚ) * 2 ^ e < 2 ^ 53 * 2 ^ e := mul_lt_mul_of_pos_right hlt (by positivity)
    _ = 2 ^ 52 * 2 ^ (e + 1) := by
      rw [zpow_add_one₀ (by norm_num)]
      ring
    _ ≤ (2 : ℚ) ^ 52 * 2 ^ e' := by
      apply mul_le_mul_of_nonneg_left _ (by positivity)
      exact zpow_le_zpow_right₀ (by norm_num) he
    _ ≤ m' * 2 ^ e' := mul_le_mul_of_nonneg_right hge (by positivity)

/-- Between canonical floats the exponents decide, and the mantissas only if the exponents are
equal. -/
theorem compare_mantissas {s s' : Sign} {m m' : ℕ} {e e' : ℤ} {hm : 0 < m} {hm' : 0 < m'}
    (hf : Canonical (.finite s m e hm)) (hg : Canonical (.finite s' m' e' hm')) :
    (compare e e').then (compare m m') = compare ((m : ℚ) * 2 ^ e) (m' * 2 ^ e') := by
  obtain ⟨hlt, he, hor⟩ := hf
  obtain ⟨hlt', he', hor'⟩ := hg
  rcases lt_trichotomy e e' with h | rfl | h
  · -- the float with the larger exponent is not subnormal
    have hn' : 2 ^ 52 ≤ m' := hor'.resolve_right (by omega)
    rw [compare_lt_iff_lt.2 h, compare_lt_iff_lt.2 (mul_zpow_lt_of_lt hlt hn' h)]
    rfl
  · have hpos : (0 : ℚ) < 2 ^ e := by positivity
    rw [compare_eq_iff_eq.2 rfl]
    rcases lt_trichotomy m m' with h | rfl | h
    · have hcast : (m : ℚ) * 2 ^ e < m' * 2 ^ e :=
        mul_lt_mul_of_pos_right (by exact_mod_cast h) hpos
      rw [compare_lt_iff_lt.2 h, compare_lt_iff_lt.2 hcast]
      rfl
    · rw [compare_eq_iff_eq.2 rfl, compare_eq_iff_eq.2 rfl]
      rfl
    · have hcast : (m' : ℚ) * 2 ^ e < m * 2 ^ e :=
        mul_lt_mul_of_pos_right (by exact_mod_cast h) hpos
      rw [compare_gt_iff_gt.2 h, compare_gt_iff_gt.2 hcast]
      rfl
  · have hn : 2 ^ 52 ≤ m := hor.resolve_right (by omega)
    rw [compare_gt_iff_gt.2 h, compare_gt_iff_gt.2 (mul_zpow_lt_of_lt hlt' hn h)]
    rfl

theorem compare_neg_neg (a b : ℚ) : compare (-a) (-b) = (compare a b).swap := by
  rcases lt_trichotomy a b with h | rfl | h
  · rw [compare_lt_iff_lt.2 h, compare_gt_iff_gt.2 (neg_lt_neg h)]
    rfl
  · rw [compare_eq_iff_eq.2 rfl, compare_eq_iff_eq.2 rfl]
    rfl
  · rw [compare_gt_iff_gt.2 h, compare_lt_iff_lt.2 (neg_lt_neg h)]
    rfl

theorem compare_spec {f g : UnpackedFloat} (hf : Canonical f) (hg : Canonical g) :
    UnpackedFloat.compare f g = some (compare (rational f) (rational g)) := by
  rcases hf.shape with ⟨s, rfl⟩ | ⟨s, m, e, hm, rfl⟩ <;>
    rcases hg.shape with ⟨s', rfl⟩ | ⟨s', m', e', hm', rfl⟩
  · rw [rational_zero, rational_zero, compare_eq_iff_eq.2 rfl]
    rfl
  · have hpos : (0 : ℚ) < m' * 2 ^ e' := by positivity
    rw [rational_zero, rational]
    cases s' with
    | negative => rw [signed, compare_gt_iff_gt.2 (neg_lt_zero.2 hpos), UnpackedFloat.compare]
    | positive => rw [signed, compare_lt_iff_lt.2 hpos, UnpackedFloat.compare]
  · have hpos : (0 : ℚ) < m * 2 ^ e := by positivity
    rw [rational_zero, rational]
    cases s with
    | negative => rw [signed, compare_lt_iff_lt.2 (neg_lt_zero.2 hpos), UnpackedFloat.compare]
    | positive => rw [signed, compare_gt_iff_gt.2 hpos, UnpackedFloat.compare]
  · have hpos : (0 : ℚ) < m * 2 ^ e := by positivity
    have hpos' : (0 : ℚ) < m' * 2 ^ e' := by positivity
    rw [rational, rational]
    cases s <;> cases s'
    · rw [UnpackedFloat.compare, compare_mantissas hf hg, ← compare_neg_neg]
      rfl
    · rw [signed, signed, compare_lt_iff_lt.2 (by linarith), UnpackedFloat.compare]
    · rw [signed, signed, compare_gt_iff_gt.2 (by linarith), UnpackedFloat.compare]
    · rw [UnpackedFloat.compare, compare_mantissas hf hg]
      rfl

section
variable {x y : Float} {a b : ℚ} (hx : value? x = some a) (hy : value? y = some b)
include hx hy

theorem value?_add : value? (x + y) = nearest? (a + b) := by
  obtain ⟨hf, rfl⟩ := canonical_of_value? hx
  obtain ⟨hg, rfl⟩ := canonical_of_value? hy
  rw [value?_eq]
  exact unpacked?_pack (add_spec hf hg)

theorem value?_sub : value? (x - y) = nearest? (a - b) := by
  obtain ⟨hf, rfl⟩ := canonical_of_value? hx
  obtain ⟨hg, rfl⟩ := canonical_of_value? hy
  rw [value?_eq]
  exact unpacked?_pack (sub_spec hf hg)

theorem value?_mul : value? (x * y) = nearest? (a * b) := by
  obtain ⟨hf, rfl⟩ := canonical_of_value? hx
  obtain ⟨hg, rfl⟩ := canonical_of_value? hy
  rw [value?_eq]
  exact unpacked?_pack (mul_spec hf hg)

theorem value?_div (h0 : b ≠ 0) : value? (x / y) = nearest? (a / b) := by
  obtain ⟨hf, rfl⟩ := canonical_of_value? hx
  obtain ⟨hg, rfl⟩ := canonical_of_value? hy
  rw [value?_eq]
  exact unpacked?_pack (div_spec hf hg h0)

theorem lt_iff : x < y ↔ a < b := by
  obtain ⟨hf, rfl⟩ := canonical_of_value? hx
  obtain ⟨hg, rfl⟩ := canonical_of_value? hy
  change decide (x.toModel.unpack.lt y.toModel.unpack = true) = true ↔ _
  rw [decide_eq_true_eq, UnpackedFloat.lt, compare_spec hf hg, beq_iff_eq, Option.some_inj,
    compare_lt_iff_lt]

theorem le_iff : x ≤ y ↔ a ≤ b := by
  obtain ⟨hf, rfl⟩ := canonical_of_value? hx
  obtain ⟨hg, rfl⟩ := canonical_of_value? hy
  change decide (x.toModel.unpack.le y.toModel.unpack = true) = true ↔ _
  rw [decide_eq_true_eq, UnpackedFloat.le, compare_spec hf hg, Option.any_some,
    ← compare_le_iff_le, Ordering.isLE_iff_ne_gt]

theorem beq_iff : (x == y) = true ↔ a = b := by
  obtain ⟨hf, rfl⟩ := canonical_of_value? hx
  obtain ⟨hg, rfl⟩ := canonical_of_value? hy
  change (x.toModel.unpack.compare y.toModel.unpack == some .eq) = true ↔ _
  rw [compare_spec hf hg, beq_iff_eq, Option.some_inj, compare_eq_iff_eq]

/-- What lies between two numbers is a number. -/
theorem exists_value?_of_le {z : Float} (hxz : x ≤ z) (hzy : z ≤ y) : ∃ q, value? z = some q := by
  obtain ⟨hf, -⟩ := canonical_of_value? hx
  obtain ⟨hg, -⟩ := canonical_of_value? hy
  replace hxz : x.toModel.unpack.le z.toModel.unpack = true := of_decide_eq_true hxz
  replace hzy : z.toModel.unpack.le y.toModel.unpack = true := of_decide_eq_true hzy
  rw [value?_eq]
  cases hz : z.toModel.unpack with
  | zero s => exact ⟨_, rfl⟩
  | finite s m e hm => exact ⟨_, rfl⟩
  | infinity s =>
    rw [hz] at hxz hzy
    cases s with
    | negative =>
      rcases hf.shape with ⟨s', hs⟩ | ⟨s', m, e, hm, hs⟩ <;> rw [hs] at hxz <;> cases hxz
    | positive =>
      rcases hg.shape with ⟨s', hs⟩ | ⟨s', m, e, hm, hs⟩ <;> rw [hs] at hzy <;> cases hzy
  | notANumber =>
    rw [hz] at hzy
    cases hzy

end

theorem value?_toFloat (n : UInt32) : value? n.toFloat = some (n.toNat : ℚ) := by
  have hround : RoundsTo (ofUInt32 Format.binary64 n) n.toNat := by
    have hspec := normalize_spec n.toNat 0 .positive
    rw [zpow_zero, mul_one, Int.cast_natCast] at hspec
    exact hspec
  have hlt : |(n.toNat : ℤ)| < 2 ^ 53 := by
    have := n.toNat_lt
    rw [Nat.abs_cast]
    omega
  have hexact := nearest?_eq_some (e := 0) hlt (by norm_num) (by norm_num)
  rw [zpow_zero, mul_one, Int.cast_natCast] at hexact
  rw [value?_eq, ← hexact]
  exact unpacked?_pack hround

end TileWorld.Binary
