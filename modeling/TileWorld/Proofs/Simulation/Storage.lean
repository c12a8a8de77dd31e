import TileWorld.Proofs.Machine
import TileWorld.Proofs.TileMap.Random
import TileWorld.Simulation.Determinism

/-! What a run asks of a machine. The cells of its grid have to be stored, and so have the checksums
when it is repeated; it is stopped if they cannot be, and otherwise it is the run that has all the
storage it takes. -/

namespace TileWorld.Config

/-- The cells of the grid that the configuration describes can be stored. -/
def GridFits (c : Config) : Prop := c.width.toNat * c.height.toNat < 2 ^ 63

instance (c : Config) : Decidable c.GridFits :=
  inferInstanceAs (Decidable (c.width.toNat * c.height.toNat < 2 ^ 63))

theorem random?_grid (c : Config) :
    TileMap.random? c.width.toUInt64 c.height.toUInt64 c.solidProbability ⟨c.seed⟩ =
      if c.GridFits then
        some (TileMap.random c.width.toNat c.height.toNat c.solidProbability ⟨c.seed⟩)
      else none := TileMap.random?_eq _ _ _ _

theorem stopsIf_start? (c : Config) :
    StopsIf (c.validate = .ok () ∧ ¬ c.GridFits) (Simulation.start? c) (Simulation.start c) := by
  apply StopsIf.check
  intro _
  have hgrid : StopsIf (¬ c.GridFits)
      (liftM (TileMap.random? c.width.toUInt64 c.height.toUInt64 c.solidProbability ⟨c.seed⟩) :
        ExceptT Violation Option _)
      (.ok (TileMap.random c.width.toNat c.height.toNat c.solidProbability ⟨c.seed⟩)) := by
    rw [random?_grid]
    exact .liftOption (fun h => if_neg h) (fun h => if_pos (not_not.1 h))
  exact (hgrid.bind fun drawn _ => .pure (Simulation.populate c drawn.1 drawn.2)).congr (by simp)

theorem stopsIf_checksum? (c : Config) :
    StopsIf (c.validate = .ok () ∧ ¬ c.GridFits) c.checksum? c.checksum :=
  ((stopsIf_start? c).bind fun s _ => .pure s.run.checksum).congr (by simp)

/-- The storage for the checksums is asked for even if no grid can be stored, and no grid is asked
for if there is nothing to be run. -/
theorem stopsIf_verify? (c : Config) (runs : Nat) :
    StopsIf (c.validate = .ok () ∧ (2 ^ 60 ≤ runs ∨ runs ≠ 0 ∧ ¬ c.GridFits)) (c.verify? runs)
      (c.verify runs) := by
  apply StopsIf.check
  intro hc
  have hstorage : StopsIf (2 ^ 60 ≤ runs)
      (liftM (Machine.reserve? 8 runs) : ExceptT Violation Option Unit) (.ok ()) := by
    rw [Machine.reserve?_eq]
    exact .liftOption (fun h => if_neg (by omega)) (fun h => if_pos (by omega))
  have hruns := StopsIf.mapM_replicate (stopsIf_checksum? c) runs
  refine (hstorage.bind fun _ _ => hruns.bind fun checksums _ =>
    .pure (DeterminismReport.mk runs checksums (sameBits checksums))).congr ?_
  simp [hc]

end TileWorld.Config
