import TileWorld.Config.Validity
import TileWorld.Proofs.Binary.Whole
import TileWorld.Proofs.Decimal.Layout
import TileWorld.Proofs.Except

/-! The check of a configuration accepts those that are valid and no others. What it says of the
others is one line. -/

namespace TileWorld.Config
open Binary

variable {c : Config}

theorem not_le_zero_iff {x : Float} (h : x.isFinite) : ¬ x ≤ 0 ↔ x > 0 := by
  obtain ⟨q, hq⟩ := (isFinite_iff x).1 h
  rw [gt_iff_lt, lt_iff value?_zero hq, le_iff hq value?_zero, not_le]

theorem bad_timestep_iff : ¬ c.dt.isFinite ∨ c.dt ≤ 0 ↔ ¬ (c.dt.isFinite ∧ c.dt > 0) := by
  by_cases h : c.dt.isFinite
  · simp [h, ← not_le_zero_iff h]
  · simp [h]

theorem validate_eq_ok_iff : c.validate = .ok () ↔ c.Valid := by
  have hpos (n : UInt32) : ¬ n = 0 ↔ n > 0 := UInt32.pos_iff_ne_zero.symm
  unfold validate
  simp only [ite_error_eq_ok_iff, hpos, bad_timestep_iff, not_not, and_true]
  constructor
  · rintro ⟨hwidth, hheight, hinitial, hsolid, hdt, hgravity, hfriction⟩
    exact ⟨hwidth, hheight, hinitial, hsolid, hdt, hgravity, hfriction⟩
  · intro h
    exact ⟨h.width, h.height, h.initialEntities, h.solidProbability, h.timestep, h.gravity,
      h.friction⟩

end TileWorld.Config
