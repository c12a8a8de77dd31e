import TileWorld.Entity
import TileWorld.TileMap.Overlap
import TileWorld.Proofs.Binary.Decrement

/-! Tile coordinates of floats. They keep the order; the far edge of an entity's box is in the tile
of its near edge or in the next one; and a box that moves by one at most leaves no tile free between
where it was and where it is. -/

namespace TileWorld
open Binary Float.Model Float.Model.UnpackedFloat

/-- A number cut down to a whole one, toward zero. -/
def truncate (q : ℚ) : ℤ := if q < 0 then ⌈q⌉ else ⌊q⌋

theorem truncate_mono {a b : ℚ} (h : a ≤ b) : truncate a ≤ truncate b := by
  unfold truncate
  split_ifs with ha hb hb
  · exact Int.ceil_mono h
  · exact (Int.ceil_le.2 (by exact_mod_cast ha.le)).trans (Int.floor_nonneg.2 (not_lt.1 hb))
  · exact absurd (h.trans_lt hb) ha
  · exact Int.floor_mono h

theorem truncate_le_add_one {a b : ℚ} (h : b ≤ a + 1) : truncate b ≤ truncate a + 1 := by
  refine (truncate_mono h).trans ?_
  unfold truncate
  split_ifs with hsum ha ha
  · exact (Int.ceil_add_one a).le
  · linarith
  · -- a number between minus one and zero and its successor are both cut down to zero
    have hfloor : ⌊a + 1⌋ ≤ 0 := Int.le_of_lt_add_one (Int.floor_lt.2 (by push_cast; linarith))
    have hceil : (-1 : ℤ) ≤ ⌈a⌉ := by
      have := Int.le_ceil a
      exact_mod_cast (by linarith : (-1 : ℚ) ≤ ⌈a⌉)
    omega
  · exact (Int.floor_add_one a).le

/-- A coordinate holds 64 bits, the last of them for the sign. -/
def clamp (n : ℤ) : ℤ := max (-2 ^ 63) (min (2 ^ 63 - 1) n)

theorem tileCoord_eq {x : Float} {q : ℚ} (h : value? x = some q) :
    tileCoord x = clamp (truncate q) := by
  have hlt := lt_iff h value?_zero
  unfold tileCoord clamp truncate
  by_cases hq : q < 0
  · have hnat := toNat_toUInt64 (value?_neg h) (by linarith)
    have hfloor : ((⌊-q⌋₊ : ℕ) : ℤ) = -⌈q⌉ := by
      rw [Int.natCast_floor_eq_floor (by linarith), Int.floor_neg]
    rw [if_pos (hlt.2 hq), if_pos hq, UInt64.toNat_min, hnat]
    change -((min (min ⌊-q⌋₊ (2 ^ 64 - 1)) (2 ^ 63) : ℕ) : ℤ) = _
    omega
  · have hnat := toNat_toUInt64 h (not_lt.1 hq)
    have hfloor : ((⌊q⌋₊ : ℕ) : ℤ) = ⌊q⌋ := Int.natCast_floor_eq_floor (not_lt.1 hq)
    rw [if_neg (mt hlt.1 hq), if_neg hq, UInt64.toNat_min, hnat]
    change ((min (min ⌊q⌋₊ (2 ^ 64 - 1)) (2 ^ 63 - 1) : ℕ) : ℤ) = _
    omega

theorem tileCoord_congr {x y : Float} (h : x.toModel.unpack = y.toModel.unpack) :
    tileCoord x = tileCoord y := by
  have hlt : x < 0 ↔ y < 0 := by
    change decide (x.toModel.unpack.lt (0 : Float).toModel.unpack = true) = true ↔ _
    rw [h]
    rfl
  have hneg : (-x).toUInt64 = (-y).toUInt64 :=
    congrArg (fun f => (Float.Model.pack (UnpackedFloat.neg f)).toUInt64) h
  have hpos : x.toUInt64 = y.toUInt64 := congrArg UnpackedFloat.toUInt64 h
  rw [tileCoord, tileCoord, hneg, hpos]
  exact if_congr hlt rfl rfl

theorem tileCoord_add_of_none {x y : Float} {b : ℚ} (h : value? x = none) (hy : value? y = some b) :
    tileCoord (x + y) = tileCoord x :=
  tileCoord_congr (unpack_add_of_none h hy)

/-- The side of an entity as a number: the float that is nearest to nine tenths. -/
def sideValue : ℚ := 8106479329266893 / 2 ^ 53

theorem sideValue_bounds : 3 / 4 < sideValue ∧ sideValue < 15 / 16 := by
  norm_num [sideValue]

theorem value?_side : value? Entity.side = some sideValue := by
  have hexact : Decimal.exact Entity.side = .finite false 8106479329266893 (-53) := by
    decide +kernel
  rw [value?_of_exact hexact, sideValue, zpow_neg, ← div_eq_mul_inv]
  norm_num

/-- The far edge of a box that begins at a number. It is rounded, but neither back before the near
edge nor on beyond the next whole number. -/
def farEdge (q : ℚ) : ℚ := nearest (q + sideValue)

theorem farEdge_lt_one {q : ℚ} (hq : q < 0) : farEdge q < 1 := by
  have hle : farEdge q ≤ nearest sideValue := nearest_mono (by linarith)
  rw [nearest_of_value? value?_side] at hle
  linarith [sideValue_bounds.2]

theorem add_quarter_le_farEdge {q : ℚ} (hq : |q| < 2 ^ 52) : q + 1 / 4 ≤ farEdge q := by
  have hbounds := sideValue_bounds
  obtain ⟨hlower, hupper⟩ := abs_lt.1 hq
  have hlt : |q + sideValue| < 2 ^ ((0 : ℤ) + 53) := by
    rw [abs_lt]
    norm_num at *
    constructor <;> linarith
  have hnearest := (abs_le.1 (abs_nearest_sub_le hlt (by norm_num))).1
  rw [zpow_zero] at hnearest
  rw [farEdge]
  linarith

section
variable {x : Float} {q : ℚ} (h : value? x = some q)
include h

theorem le_farEdge : q ≤ farEdge q := by
  have hmono : nearest q ≤ farEdge q := nearest_mono (by linarith [sideValue_bounds.1])
  rwa [nearest_of_value? h] at hmono

theorem farEdge_lt (hq : 0 ≤ q) : farEdge q < ⌊q⌋ + 2 := by
  obtain ⟨m, e, rfl, hm, hor⟩ := exists_mantissa h hq
  exact nearest_add_lt hm hor (by linarith [sideValue_bounds.1]) sideValue_bounds.2

theorem farEdge_le_add_one (hq : q ≤ -1) : farEdge q ≤ q + 1 := by
  have hsub : -q - 1 ≤ nearest (-q - sideValue) :=
    sub_one_le_nearest_sub (value?_neg h) (by linarith) (by linarith [sideValue_bounds.1])
      (by linarith [sideValue_bounds.2])
  rw [← neg_add', ← neg_add', nearest_neg] at hsub
  exact neg_le_neg_iff.1 hsub

theorem truncate_farEdge_le : truncate (farEdge q) ≤ truncate q + 1 := by
  rcases le_or_gt q (-1) with hone | hone
  · exact truncate_le_add_one (farEdge_le_add_one h hone)
  rcases lt_or_ge q 0 with hq | hq
  · have hzero : truncate q = 0 := (if_pos hq).trans (Int.ceil_eq_zero_iff.2 ⟨hone, hq.le⟩)
    have hlt : truncate (farEdge q) ≤ truncate 1 := truncate_mono (farEdge_lt_one hq).le
    have hfar : truncate 1 = 1 := by norm_num [truncate]
    omega
  · have hfloor : truncate q = ⌊q⌋ := if_neg (not_lt.2 hq)
    have hfloor' : truncate (farEdge q) = ⌊farEdge q⌋ :=
      if_neg (not_lt.2 (hq.trans (le_farEdge h)))
    have hlt : ⌊farEdge q⌋ < ⌊q⌋ + 2 := Int.floor_lt.2 (by exact_mod_cast farEdge_lt h hq)
    omega

theorem value?_add_side : value? (x + Entity.side) = some (farEdge q) := by
  have habs := abs_le.1 (abs_le_of_value? h)
  have hle := le_farEdge h
  have hlt : |farEdge q| < 2 ^ 1024 := by
    have hgap : (2 : ℚ) ≤ 2 ^ 971 := le_self_pow₀ (by norm_num) (by norm_num)
    rw [abs_lt]
    generalize (2 : ℚ) ^ 971 = gap at *
    generalize (2 : ℚ) ^ 1024 = top at *
    rcases lt_or_ge q 0 with hq | hq
    · have := farEdge_lt_one hq
      constructor <;> linarith
    · have := farEdge_lt h hq
      have := Int.floor_le q
      constructor <;> linarith
  exact (value?_add h value?_side).trans (nearest?_eq hlt)

end

theorem tileCoord_le_add_side (x : Float) : tileCoord x ≤ tileCoord (x + Entity.side) := by
  cases h : value? x with
  | none => rw [tileCoord_add_of_none h value?_side]
  | some q =>
    have := truncate_mono (le_farEdge h)
    rw [tileCoord_eq h, tileCoord_eq (value?_add_side h), clamp, clamp]
    omega

/-- A box covers one tile or two along each axis, at the wide tile around zero and at the last tiles
of the coordinates as well, so its corners are in all tiles that it covers. -/
theorem tileCoord_add_side_le (x : Float) : tileCoord (x + Entity.side) ≤ tileCoord x + 1 := by
  cases h : value? x with
  | none =>
    rw [tileCoord_add_of_none h value?_side]
    omega
  | some q =>
    have := truncate_farEdge_le h
    rw [tileCoord_eq h, tileCoord_eq (value?_add_side h), clamp, clamp]
    omega

/-- The change from one coordinate to another is at most one. The difference is the rounded one,
which allows a little more. A coordinate that stays what it is has not changed, also when it is
infinite or no number. -/
def Near (x y : Float) : Prop := x = y ∨ -1 ≤ y - x ∧ y - x ≤ 1

instance (x y : Float) : Decidable (Near x y) :=
  inferInstanceAs (Decidable (_ ∨ _))

section
variable {x y : Float} {a b : ℚ}

theorem Near.eq_or_exists_value? (h : Near x y) :
    x = y ∨ ∃ a b, value? x = some a ∧ value? y = some b ∧ |b - a| < 5 / 4 := by
  rcases h with rfl | ⟨hlower, hupper⟩
  · exact Or.inl rfl
  obtain ⟨d, hd⟩ := exists_value?_of_le (value?_neg value?_one) value?_one hlower hupper
  have hnumber : value? (y - x) ≠ none := by rw [hd]; exact Option.some_ne_none d
  cases hx : value? x with
  | none => exact absurd (value?_sub_of_none (Or.inr hx)) hnumber
  | some a =>
    cases hy : value? y with
    | none => exact absurd (value?_sub_of_none (Or.inl hy)) hnumber
    | some b =>
      have hnearest := nearest_of_nearest? ((value?_sub hy hx).symm.trans hd)
      refine Or.inr ⟨a, b, rfl, rfl, abs_lt_of_abs_nearest_le_one ?_⟩
      rw [hnearest, abs_le]
      exact ⟨(le_iff (value?_neg value?_one) hd).1 hlower, (le_iff hd value?_one).1 hupper⟩

/-- After a change of less than five quarters a box begins next to where the old one ends, at the
latest. -/
theorem tileCoord_le_of_sub_lt (hx : value? x = some a) (hy : value? y = some b)
    (h : b - a < 5 / 4) : tileCoord y ≤ tileCoord (x + Entity.side) + 1 := by
  have hle : b ≤ farEdge a + 1 := by
    have hfar := le_farEdge hx
    rcases le_or_gt b (a + 1) with hba | hba
    · linarith
    rcases lt_or_ge |a| (2 ^ 52) with hsmall | hlarge
    · linarith [add_quarter_le_farEdge hsmall]
    · -- both are multiples of one half, so they are at most one apart
      have hlarge' : 2 ^ 51 ≤ |b| := by
        have := abs_sub_abs_le_abs_sub a b
        have hsub : |a - b| < 5 / 4 := by
          rw [abs_lt]
          constructor <;> linarith
        norm_num at *
        linarith
      obtain ⟨k, hk⟩ := exists_int_of_le_abs hx (by norm_num at *; linarith)
      obtain ⟨n, hn⟩ := exists_int_of_le_abs hy hlarge'
      have hlt : n < k + 3 := by exact_mod_cast (by linarith : (n : ℚ) < k + 3)
      have hle : (n : ℚ) ≤ k + 2 := by exact_mod_cast (by omega : n ≤ k + 2)
      linarith
  have := truncate_le_add_one hle
  rw [tileCoord_eq hy, tileCoord_eq (value?_add_side hx), clamp, clamp]
  omega

/-- A box that moves by one at most leaves no tiles free between where it was and where it is. -/
theorem Near.tileCoord_le (h : Near x y) :
    tileCoord y ≤ tileCoord (x + Entity.side) + 1 ∧
      tileCoord x ≤ tileCoord (y + Entity.side) + 1 := by
  rcases h.eq_or_exists_value? with rfl | ⟨a, b, hx, hy, hab⟩
  · have := tileCoord_le_add_side x
    omega
  · obtain ⟨hlower, hupper⟩ := abs_lt.1 hab
    exact ⟨tileCoord_le_of_sub_lt hx hy hupper, tileCoord_le_of_sub_lt hy hx (by linarith)⟩

end

end TileWorld
