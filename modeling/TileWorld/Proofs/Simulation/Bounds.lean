import Mathlib.Order.Interval.Finset.Nat
import TileWorld.Proofs.Simulation.Ledger
import TileWorld.Proofs.Simulation.Lifetime

/-! How many entities a run holds. A life lasts at least 300 and at most 900 frames, so at first all
that are born add up, and later the population is what was born in a window of the latest frames,
which is at least 299 and at most 899 frames wide. -/

namespace TileWorld.Solitary
open Entity

variable {c : Config} {m : TileMap} {g : Generator} {t k : ℕ}

theorem ceil_lifetime_bounds (g : Generator) (k : ℕ) :
    300 ≤ ⌈lifetime g k⌉₊ ∧ ⌈lifetime g k⌉₊ ≤ 900 := by
  obtain ⟨hle, hlt⟩ := lifetime_bounds g k
  constructor
  · have hceil : ((300 : ℕ) : ℚ) ≤ ⌈lifetime g k⌉₊ := by
      push_cast
      exact hle.trans (Nat.le_ceil _)
    exact_mod_cast hceil
  · rw [Nat.ceil_le]
    push_cast
    exact hlt.le

theorem mem_living : k ∈ living c m g t ↔
    k < drawnBy c t ∧ t + 1 - birth c k < ⌈lifetime g k⌉₊ := by
  rw [living, List.mem_filter, List.mem_range, decide_eq_true_eq, livesThrough_iff]

theorem drawnBy_mono {a b : ℕ} (h : a ≤ b) : drawnBy c a ≤ drawnBy c b :=
  Nat.add_le_add_left (Nat.mul_le_mul_right _ h) _

/-- What is drawn after frame `a` is born after it. -/
theorem lt_birth {a : ℕ} (ha : drawnBy c a ≤ k) (hk : k < drawnBy c t) : a < birth c k := by
  induction t with
  | zero =>
    have := drawnBy_mono (c := c) (Nat.zero_le a)
    omega
  | succ t ih =>
    by_cases hkt : k < drawnBy c t
    · exact ih hkt
    · rw [birth_of_drawnBy (not_lt.1 hkt) hk]
      by_contra hat
      have := drawnBy_mono (c := c) (not_lt.1 hat)
      omega

theorem nodup_living (t : ℕ) : (living c m g t).Nodup := List.nodup_range.filter _

theorem length_living_le {a : ℕ} (h : ∀ k ∈ living c m g t, a ≤ k) :
    (living c m g t).length ≤ drawnBy c t - a := by
  have hsub : (living c m g t).toFinset ⊆ Finset.Ico a (drawnBy c t) := by
    intro k hk
    rw [List.mem_toFinset] at hk
    exact Finset.mem_Ico.2 ⟨h k hk, (mem_living.1 hk).1⟩
  rw [← List.toFinset_card_of_nodup (nodup_living t), ← Nat.card_Ico]
  exact Finset.card_le_card hsub

theorem le_length_living {a : ℕ} (h : ∀ k, a ≤ k → k < drawnBy c t → k ∈ living c m g t) :
    drawnBy c t - a ≤ (living c m g t).length := by
  have hsub : Finset.Ico a (drawnBy c t) ⊆ (living c m g t).toFinset := by
    intro k hk
    rw [Finset.mem_Ico] at hk
    exact List.mem_toFinset.2 (h k hk.1 hk.2)
  rw [← List.toFinset_card_of_nodup (nodup_living t), ← Nat.card_Ico]
  exact Finset.card_le_card hsub

theorem mem_living_of_le (ht : t ≤ 299) (hk : k < drawnBy c t) : k ∈ living c m g t := by
  have hframes := (ceil_lifetime_bounds g k).1
  have hbirth := birth_pos (c := c) k
  exact mem_living.2 ⟨hk, by omega⟩

theorem mem_living_of_drawnBy_le (hk : drawnBy c (t - 299) ≤ k) (hk' : k < drawnBy c t) :
    k ∈ living c m g t := by
  have hframes := (ceil_lifetime_bounds g k).1
  have hbirth := lt_birth hk hk'
  exact mem_living.2 ⟨hk', by omega⟩

theorem drawnBy_le_of_mem_living (ht : 900 ≤ t) (hk : k ∈ living c m g t) :
    drawnBy c (t - 899) ≤ k := by
  have hframes := (ceil_lifetime_bounds g k).2
  have hlife := (mem_living.1 hk).2
  by_contra hlt
  have hbirth := birth_le (not_le.1 hlt)
  omega

theorem drawnBy_sub {w : ℕ} (hw : w ≤ t) :
    drawnBy c t - drawnBy c (t - w) = w * c.spawnPerFrame.toNat := by
  obtain ⟨a, rfl⟩ := Nat.exists_eq_add_of_le hw
  rw [Nat.add_sub_cancel_left, drawnBy, drawnBy, Nat.add_mul]
  omega

theorem length_living_bounds (ht : 900 ≤ t) :
    299 * c.spawnPerFrame.toNat ≤ (living c m g t).length ∧
      (living c m g t).length ≤ 899 * c.spawnPerFrame.toNat := by
  constructor
  · rw [← drawnBy_sub (t := t) (by omega)]
    exact le_length_living fun k => mem_living_of_drawnBy_le
  · rw [← drawnBy_sub (t := t) (by omega)]
    exact length_living_le fun k => drawnBy_le_of_mem_living ht

theorem length_living_le_always (t : ℕ) :
    (living c m g t).length ≤ c.initialEntities.toNat + 899 * c.spawnPerFrame.toNat := by
  by_cases ht : 900 ≤ t
  · exact (length_living_bounds ht).2.trans (Nat.le_add_left _ _)
  · calc (living c m g t).length ≤ drawnBy c t - 0 := length_living_le fun k _ => Nat.zero_le k
      _ ≤ drawnBy c 899 := drawnBy_mono (by omega)

theorem activeCount_eq_length_living (t : ℕ) :
    ((Simulation.populate c m g).runFrames t).activeCount = (living c m g t).length := by
  rw [Simulation.activeCount_eq, (follows_runFrames t).population, List.length_map]

theorem peakActive_le (t : ℕ) : ((Simulation.populate c m g).runFrames t).peakActive ≤
    c.initialEntities.toNat + 900 * c.spawnPerFrame.toNat := by
  induction t with
  | zero => exact Nat.le_add_right _ _
  | succ t ih =>
    have hjoined := Simulation.length_joined ((Simulation.populate c m g).runFrames t)
    have hliving := length_living_le_always (c := c) (m := m) (g := g) t
    rw [activeCount_eq_length_living, (follows_runFrames t).config] at hjoined
    rw [Simulation.runFrames_succ, Simulation.step_peakActive]
    omega

/-- How many entities there are after `t` frames of a run from `s` on: all that have been born, as
long as `t` is at most 299; from the 900th frame on those of at least 299 and at most 899 frames,
none of them an initial one; and never more than the initial ones and those of 899 frames. -/
structure Bounded (c : Config) (m : TileMap) (g : Generator) (s : Simulation) : Prop where
  early : ∀ t ≤ 299, (s.runFrames t).totalDropped = 0 ∧
    (s.runFrames t).activeCount = c.initialEntities.toNat + t * c.spawnPerFrame.toNat
  initialGone : ∀ t ≥ 900,
    (s.runFrames t).population.toList =
      (living c m g t).map (fun k => alone c m g k (t + 1 - birth c k)) ∧
    ∀ k ∈ living c m g t, c.initialEntities.toNat ≤ k
  late : ∀ t ≥ 900, 299 * c.spawnPerFrame.toNat ≤ (s.runFrames t).activeCount ∧
    (s.runFrames t).activeCount ≤ 899 * c.spawnPerFrame.toNat
  active : ∀ t, (s.runFrames t).activeCount ≤
    c.initialEntities.toNat + 899 * c.spawnPerFrame.toNat
  peak : ∀ t, (s.runFrames t).peakActive ≤ c.initialEntities.toNat + 900 * c.spawnPerFrame.toNat

theorem bounded_populate (c : Config) (m : TileMap) (g : Generator) :
    Bounded c m g (Simulation.populate c m g) where
  early := by
    intro t ht
    obtain ⟨-, hframe, hspawned, ⟨hdropped, hactive⟩, -, -, -⟩ :=
      Simulation.balanced_runFrames c m g t
    have hle := length_living_le (c := c) (m := m) (g := g) (t := t) fun k _ => Nat.zero_le k
    have hge : drawnBy c t - 0 ≤ (living c m g t).length :=
      le_length_living fun k _ => mem_living_of_le ht
    rw [drawnBy] at hle hge
    rw [hframe] at hspawned
    rw [activeCount_eq_length_living] at hactive ⊢
    omega
  initialGone := by
    intro t ht
    refine ⟨(follows_runFrames t).population, fun k hk => ?_⟩
    exact (Nat.le_add_right _ _).trans (drawnBy_le_of_mem_living ht hk)
  late := by
    intro t ht
    rw [activeCount_eq_length_living]
    exact length_living_bounds ht
  active := by
    intro t
    rw [activeCount_eq_length_living]
    exact length_living_le_always t
  peak := peakActive_le

/-- However long a run is, its population keeps within bounds that the spawns per frame and the
initial entities set. -/
theorem everyRun_bounded (c : Config) (hc : c.validate = .ok ()) : c.EveryRun (Bounded c) :=
  Config.everyRun_of_populate hc (bounded_populate c)

theorem default_everyRun_bounded :
    ({} : Config).validate = .ok () ∧ ({} : Config).EveryRun (Bounded {}) :=
  ⟨rfl, everyRun_bounded {} rfl⟩

end TileWorld.Solitary
