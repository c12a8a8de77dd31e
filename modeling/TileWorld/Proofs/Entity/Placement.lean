import TileWorld.Proofs.Binary.Magnitude
import TileWorld.Proofs.Generator.Fraction
import TileWorld.Proofs.Simulation.Frames
import TileWorld.Proofs.TileMap.Edge

/-! Where new entities are placed. A coordinate is drawn from the length of its axis, and the three
roundings on the way add less than the largest draw is short of one, so the box stays on the axis.
This holds of axes of every length: one that is too long for a float makes all coordinates infinite,
and those are cut down to the last of the tile coordinates. -/

namespace TileWorld.Entity
open Binary

/-- The coordinate on an axis of `n` tiles that is drawn with the state `x`. -/
def place (x : UInt32) (n : ℕ) : Float := Generator.fraction x * (n.toFloat - 2) + 1

theorem drawn_pos (m : TileMap) (g : Generator) (k : ℕ) : (drawn m g k).pos =
    ⟨place (Generator.step (g.skip (6 * k)).state) m.width,
      place (Generator.step (g.skip (6 * k + 1)).state) m.height⟩ := by
  rw [Generator.skip_add]
  rfl

/-- The same coordinate in numbers, rounded after each operation. -/
def placed (d : ℚ) (n : ℕ) : ℚ := nearest (nearest (d * nearest (nearest n - 2)) + 1)

theorem value?_half : value? 0.5 = some (1 / 2) := by
  have hexact : Decimal.exact 0.5 = .finite false (2 ^ 52) (-53) := by decide +kernel
  rw [value?_of_exact hexact, zpow_neg]
  norm_num

theorem value?_speedSpread : value? speedSpread.x = some 6 ∧ value? speedSpread.y = some 2 := by
  have hsix : Decimal.exact speedSpread.x = .finite false (3 * 2 ^ 51) (-50) := by decide +kernel
  refine ⟨?_, value?_two⟩
  rw [value?_of_exact hsix]
  norm_num

section
variable {n : ℕ} {d : ℚ}

theorem nearest_natCast_of_lt (hn : n < 2 ^ 53) : nearest n = n := by
  have hself := nearest_eq_self (n := n) (e := 0) (by rw [Nat.abs_cast]; exact_mod_cast hn)
    (by norm_num)
  rwa [zpow_zero, mul_one, Int.cast_natCast] at hself

theorem placed_two (d : ℚ) : placed d 2 = 1 := by
  have htwo : nearest ((2 : ℕ) : ℚ) = 2 := nearest_natCast_of_lt (by norm_num)
  have hzero : nearest 0 = 0 := nearest_of_value? value?_zero
  have hone : nearest 1 = 1 := nearest_of_value? value?_one
  rw [placed, htwo, sub_self, hzero, mul_zero, hzero, zero_add, hone]

/-- The rest of the axis, the part of it that is drawn, and the sum with the first tile are each
rounded up by little. -/
theorem placed_bounds (hn : 3 ≤ n) (hd : 0 ≤ d) (hd' : d ≤ 1 - 1 / 2 ^ 24) :
    1 ≤ placed d n ∧ placed d n < n - 1 := by
  have hn' : (3 : ℚ) ≤ n := by exact_mod_cast hn
  have hone : nearest 1 = 1 := nearest_of_value? value?_one
  have hlength : 3 ≤ nearest n := by
    have hthree : nearest ((3 : ℕ) : ℚ) = (3 : ℕ) := nearest_natCast_of_lt (by norm_num)
    rw [← Nat.cast_ofNat, ← hthree]
    exact nearest_mono (by exact_mod_cast hn)
  have hrest : 1 ≤ nearest (nearest n - 2) := by
    rw [← hone]
    exact nearest_mono (by linarith)
  have hpart : 0 ≤ nearest (d * nearest (nearest n - 2)) :=
    nearest_nonneg (mul_nonneg hd (by linarith))
  have hplaced : 1 ≤ placed d n := by
    rw [← hone]
    exact nearest_mono (by linarith)
  have hlength' := nearest_le_mul (a := n) (by linarith)
  have hrest' := nearest_le_mul (a := nearest n - 2) (by linarith)
  have hpart' : nearest (d * nearest (nearest n - 2)) ≤
      nearest (nearest n - 2) * (1 - 1 / 2 ^ 24) * (1 + 1 / 2 ^ 53) := by
    refine (nearest_mono ?_).trans (nearest_le_mul ?_)
    · rw [mul_comm]
      exact mul_le_mul_of_nonneg_left hd' (by linarith)
    · linarith
  have hplaced' := nearest_le_mul (a := nearest (d * nearest (nearest n - 2)) + 1) (by linarith)
  refine ⟨hplaced, ?_⟩
  rw [placed]
  linarith

theorem placed_le (hn : 2 ≤ n) (hd : 0 ≤ d) (hd' : d ≤ 1 - 1 / 2 ^ 24) :
    1 ≤ placed d n ∧ placed d n ≤ n - 1 := by
  rcases hn.eq_or_lt with rfl | hthree
  · rw [placed_two]
    norm_num
  · obtain ⟨hle, hlt⟩ := placed_bounds hthree hd hd'
    exact ⟨hle, hlt.le⟩

theorem farEdge_one_lt : farEdge 1 < 2 := by
  have hmono : farEdge 1 ≤ nearest ((31 : ℤ) * 2 ^ (-4 : ℤ)) := by
    apply nearest_mono
    norm_num
    linarith [sideValue_bounds.2]
  rw [nearest_eq_self (by norm_num) (by norm_num)] at hmono
  norm_num at hmono ⊢
  linarith

theorem farEdge_placed_lt {x : Float} (hx : value? x = some (placed d n)) (hn : 2 ≤ n) (hd : 0 ≤ d)
    (hd' : d ≤ 1 - 1 / 2 ^ 24) : farEdge (placed d n) < n := by
  rcases hn.eq_or_lt with rfl | hthree
  · rw [placed_two]
    exact farEdge_one_lt
  · obtain ⟨hle, hlt⟩ := placed_bounds hthree hd hd'
    have hfar := farEdge_lt hx (by linarith)
    have hfloor : ⌊placed d n⌋ < (n : ℤ) - 1 := Int.floor_lt.2 (by push_cast; exact hlt)
    have hfloor' : (⌊placed d n⌋ : ℚ) + 2 ≤ n := by exact_mod_cast (by omega : _ + 2 ≤ (n : ℤ))
    linarith

end

section
variable {n : ℕ} (x : UInt32)

theorem value?_place (hn : 2 ≤ n) (hfinite : nearest n < 2 ^ 1024) : ∃ d, 0 ≤ d ∧
    d ≤ 1 - 1 / 2 ^ 24 ∧ value? (place x n) = some (placed d n) := by
  have hlength : value? n.toFloat = some (nearest n) := by
    rw [value?_natToFloat]
    exact nearest?_eq (by rwa [abs_of_nonneg (nearest_nonneg (Nat.cast_nonneg n))])
  have hself : nearest (nearest n) = nearest n := nearest_of_value? hlength
  have htwo : 2 ≤ nearest n := by
    rw [← nearest_of_value? value?_two]
    exact nearest_mono (by exact_mod_cast hn)
  obtain ⟨d, hvalue, hd, hd'⟩ := Generator.exists_value?_fraction x
  refine ⟨d, hd, hd', ?_⟩
  -- nothing on the way is longer than the axis, and the axis does not overflow
  obtain ⟨hrest?, hrest, hrest'⟩ :=
    nearest?_of_le_float hself hfinite (q := nearest n - 2) (by linarith) (by linarith)
  obtain ⟨hpart?, -, -⟩ := nearest?_of_le_float hself hfinite (mul_nonneg hd hrest)
    ((mul_le_of_le_one_left hrest (by linarith)).trans hrest')
  obtain ⟨hplaced, hplaced'⟩ := placed_le hn hd hd'
  have habs : |placed d n| < 2 ^ 1024 := by
    rw [abs_of_nonneg (by linarith)]
    exact (hplaced'.trans (sub_le_self _ zero_le_one)).trans_lt (lt_of_nearest_lt hfinite)
  have hsub := (value?_sub hlength value?_two).trans hrest?
  have hmul := (value?_mul hvalue hsub).trans hpart?
  exact (value?_add hmul value?_one).trans (nearest?_eq habs)

/-- On an axis whose length is infinite as a float a coordinate is infinite too, or no number. -/
theorem tileCoord_place_of_overflow (hn : 2 ^ 53 ≤ n) (hoverflow : nearest? (n : ℚ) = none) :
    value? (place x n) = none ∧
      (tileCoord (place x n) = 2 ^ 63 - 1 ∨ tileCoord (place x n) = 0) := by
  have hrest := unpack_sub_of_infinity (unpack_natToFloat_of_overflow hn hoverflow) value?_two
  have hpart := unpack_mul_of_infinity (Generator.value?_fraction x) (by positivity) hrest
  have hnone : value? (Generator.fraction x * (n.toFloat - 2)) = none := by
    rw [value?_eq]
    rcases hpart with h | h <;> rw [h] <;> rfl
  have hcoord : tileCoord (place x n) = tileCoord (Generator.fraction x * (n.toFloat - 2)) :=
    tileCoord_add_of_none hnone value?_one
  rw [hcoord]
  refine ⟨value?_add_of_none hnone value?_one, ?_⟩
  rcases hpart with h | h
  · exact Or.inl (tileCoord_of_infinity h)
  · exact Or.inr (tileCoord_of_notANumber h)

/-- A new entity is wholly on its axis. -/
theorem onAxis_place (hn : 2 ≤ n) : OnAxis n (place x n) := by
  by_cases hfinite : nearest n < 2 ^ 1024
  · obtain ⟨d, hd, hd', hvalue⟩ := value?_place x hn hfinite
    have hone := (placed_le hn hd hd').1
    exact onAxis_of_value? hvalue (by linarith) (farEdge_placed_lt hvalue hn hd hd')
  · have hoverflow : nearest? (n : ℚ) = none :=
      if_neg (by rwa [abs_of_nonneg (nearest_nonneg (Nat.cast_nonneg n))])
    have hlong : 2 ^ 63 ≤ n := by
      by_contra hlt
      have hle : |(n : ℚ)| ≤ 2 ^ 63 := by
        rw [Nat.abs_cast]
        exact_mod_cast (not_le.1 hlt).le
      rw [(nearest?_of_abs_le (by norm_num) hle).1] at hoverflow
      cases hoverflow
    obtain ⟨hnone, hcoord⟩ := tileCoord_place_of_overflow x (by omega) hoverflow
    apply onAxis_of_none hnone <;> omega

end

section Bounds
variable {m : TileMap} (g : Generator) (k : ℕ)

theorem within_fraction (x : UInt32) : Within (2 ^ 0) (Generator.fraction x) := by
  obtain ⟨d, hvalue, hd, hd'⟩ := Generator.exists_value?_fraction x
  refine ⟨d, hvalue, abs_le.2 ⟨?_, ?_⟩⟩ <;> linarith

theorem within_place {n : ℕ} (x : UInt32) (hn : n < 2 ^ 32) : Within (2 ^ 34) (place x n) := by
  have hlength : Within (2 ^ 32) n.toFloat := by
    refine ⟨n, value?_natToFloat_of_lt (by omega), ?_⟩
    rw [Nat.abs_cast]
    exact_mod_cast hn.le
  have htwo : Within (2 ^ 32) 2 := ⟨2, value?_two, by norm_num⟩
  have hone : Within (2 ^ 33) 1 := ⟨1, value?_one, by norm_num⟩
  have hpart := (within_fraction x).mul (hlength.sub htwo (by norm_num)) (by norm_num)
  exact hpart.add hone (by norm_num)

theorem drawn_vel : (drawn m g k).vel =
    ⟨(Generator.fraction (Generator.step (g.skip (6 * k + 2)).state) - 0.5) * speedSpread.x,
      (Generator.fraction (Generator.step (g.skip (6 * k + 3)).state) - 0.5) * speedSpread.y⟩ := by
  rw [Generator.skip_add, Generator.skip_add]
  rfl

theorem within_spread : Within (2 ^ 3) speedSpread.x ∧ Within (2 ^ 3) speedSpread.y :=
  ⟨⟨6, value?_speedSpread.1, by norm_num⟩, 2, value?_speedSpread.2, by norm_num⟩

theorem within_drawn_vel :
    Within (2 ^ 4) (drawn m g k).vel.x ∧ Within (2 ^ 4) (drawn m g k).vel.y := by
  have hhalf : Within (2 ^ 0) 0.5 := ⟨1 / 2, value?_half, by norm_num⟩
  have hcentred (x : UInt32) : Within (2 ^ 1) (Generator.fraction x - 0.5) :=
    (within_fraction x).sub hhalf (by norm_num)
  rw [drawn_vel]
  exact ⟨(hcentred _).mul within_spread.1 (by norm_num),
    (hcentred _).mul within_spread.2 (by norm_num)⟩

end Bounds

end TileWorld.Entity
