import TileWorld.Proofs.Simulation.Solitary

/-! The initial entities of a run. Those that are left stand in front of all that were spawned later,
and what is spawned later makes no difference to them. -/

namespace TileWorld

/-- The two configurations differ at most in the number of frames and in the number of entities that
a frame spawns. -/
def Config.SameBesideSpawns (c c' : Config) : Prop :=
  c' = { c with frames := c'.frames, spawnPerFrame := c'.spawnPerFrame }

instance (c c' : Config) : Decidable (c.SameBesideSpawns c') :=
  inferInstanceAs (Decidable (_ = _))

namespace Solitary

variable (c : Config) (m : TileMap) (g : Generator)

/-- The numbers of the initial entities that are left after frame `t`. -/
def cohort (t : Nat) : List Nat :=
  (List.range c.initialEntities.toNat).filter (LivesThrough c m g t)

/-- The first `n` places of the population are those of the initial entities that are left; behind
them are later ones. -/
structure Leads (n : Nat) (s : Simulation) : Prop where
  le_activeCount : n ≤ s.activeCount
  number : ∀ i e, s.population.get? i = some e →
    ∃ k, (living c m g s.frame)[i]? = some k ∧ e = alone c m g k (s.frame + 1 - birth c k) ∧
      (i < n ↔ k < c.initialEntities.toNat)

variable {c m g} {t : Nat} {s : Simulation}

theorem living_eq_append (t : Nat) : ∃ later, living c m g t = cohort c m g t ++ later ∧
    ∀ k ∈ later, c.initialEntities.toNat ≤ k := by
  have hfirst : (List.range c.initialEntities.toNat).filter
      (fun k => LivesThrough c m g (t + 1 - birth c k) k) = cohort c m g t := by
    apply List.filter_congr
    intro k hk
    have hbirth : birth c k = 1 := if_pos (List.mem_range.1 hk)
    rw [hbirth, Nat.add_sub_cancel]
  refine ⟨_, by rw [living, drawnBy, List.range_add, List.filter_append, hfirst], ?_⟩
  intro k hk
  obtain ⟨i, -, rfl⟩ := List.mem_map.1 (List.mem_filter.1 hk).1
  exact Nat.le_add_right _ _

theorem lt_length_cohort_iff {i k : Nat} (h : (living c m g t)[i]? = some k) :
    i < (cohort c m g t).length ↔ k < c.initialEntities.toNat := by
  obtain ⟨later, hliving, hlater⟩ := living_eq_append (c := c) (m := m) (g := g) t
  rw [hliving] at h
  constructor
  · intro hi
    rw [List.getElem?_append_left hi] at h
    exact List.mem_range.1 (List.mem_filter.1 (List.mem_of_getElem? h)).1
  · intro hk
    by_contra hi
    rw [List.getElem?_append_right (Nat.le_of_not_lt hi)] at h
    exact absurd (hlater k (List.mem_of_getElem? h)) (Nat.not_le.2 hk)

theorem leads_of_follows (h : Follows c m g t s) : Leads c m g (cohort c m g t).length s where
  le_activeCount := by
    obtain ⟨later, hliving, -⟩ := living_eq_append (c := c) (m := m) (g := g) t
    rw [Simulation.activeCount_eq, h.population, List.length_map, hliving, List.length_append]
    exact Nat.le_add_right _ _
  number i e he := by
    obtain ⟨k, hk, rfl⟩ := h.exists_number he
    refine ⟨k, hk, rfl, lt_length_cohort_iff ?_⟩
    rwa [h.frame] at hk

/-- The initial entities that are left, as they are after frame `t`, are the first of the
population. -/
theorem get?_of_lt_cohort (h : Follows c m g t s) {i : Nat} (hi : i < (cohort c m g t).length) :
    s.population.get? i = (cohort c m g t)[i]?.map fun k => alone c m g k t := by
  obtain ⟨later, hliving, -⟩ := living_eq_append (c := c) (m := m) (g := g) t
  rw [h.get?_eq, hliving, List.getElem?_append_left hi,
    List.getElem?_eq_getElem hi]
  have hk : (cohort c m g t)[i] < c.initialEntities.toNat :=
    List.mem_range.1 (List.mem_filter.1 (List.getElem_mem hi)).1
  have hbirth : birth c (cohort c m g t)[i] = 1 := if_pos hk
  rw [Option.map_some, Option.map_some, hbirth, Nat.add_sub_cancel]

/-- Two runs that begin alike and spawn different numbers of entities have the same initial entities
left after every number of frames, in the same first places of their populations and in the same
states. -/
theorem initial_of_sameBesideSpawns (c c' : Config) (hc : c.validate = .ok ())
    (hc' : c'.validate = .ok ()) (h : c.SameBesideSpawns c') :
    let drawn := TileMap.random c.width.toNat c.height.toNat c.solidProbability ⟨c.seed⟩
    ∃ s s', Simulation.start c = .ok s ∧ Simulation.start c' = .ok s' ∧ ∀ t, ∃ n,
      Leads c drawn.1 drawn.2 n (s.runFrames t) ∧ Leads c' drawn.1 drawn.2 n (s'.runFrames t) ∧
      ∀ i < n, (s.runFrames t).population.get? i = (s'.runFrames t).population.get? i := by
  intro drawn
  obtain ⟨⟨s, hs, hfollows⟩, -⟩ := Config.everyRun_of_populate (P := fun m g s =>
    ∀ t, Follows c m g t (s.runFrames t)) hc fun m g => follows_runFrames
  obtain ⟨⟨s', hs', hfollows'⟩, -⟩ := Config.everyRun_of_populate (P := fun m g s =>
    ∀ t, Follows c' m g t (s.runFrames t)) hc' fun m g => follows_runFrames
  refine ⟨s, s', hs, hs', fun t => ⟨(cohort c drawn.1 drawn.2 t).length, ?_⟩⟩
  rw [h] at hfollows' ⊢
  refine ⟨leads_of_follows (hfollows t), leads_of_follows (hfollows' t), fun i hi => ?_⟩
  rw [get?_of_lt_cohort (hfollows t) hi, get?_of_lt_cohort (hfollows' t) hi]
  -- an initial entity lives and moves by what the two configurations have in common
  rfl

/-- The default configuration with a crowd in every frame. -/
def crowd : Config := { frames := 10, spawnPerFrame := 1000 }

theorem initial_of_crowd :
    ({} : Config).validate = .ok () ∧ crowd.validate = .ok () ∧
      ({} : Config).SameBesideSpawns crowd ∧
      let drawn := TileMap.random 128 72 0.18 ⟨123456789⟩
      ∃ s s', Simulation.start {} = .ok s ∧ Simulation.start crowd = .ok s' ∧ ∀ t, ∃ n,
        Leads {} drawn.1 drawn.2 n (s.runFrames t) ∧
        Leads crowd drawn.1 drawn.2 n (s'.runFrames t) ∧
        ∀ i < n, (s.runFrames t).population.get? i = (s'.runFrames t).population.get? i :=
  ⟨rfl, rfl, rfl, initial_of_sameBesideSpawns {} crowd rfl rfl rfl⟩

end Solitary

end TileWorld
