import Mathlib.Data.Nat.Init
import Mathlib.Logic.Function.Iterate
import TileWorld.Proofs.Simulation.Frames

/-! A run in which every entity lives alone. Entities are numbered from zero in the order in which
they are drawn; the number fixes the frame of birth, and what becomes of an entity is decided by its
own life only. The frame loop agrees with this after every number of frames. -/

namespace TileWorld.Solitary

variable (c : Config) (m : TileMap) (g : Generator)

/-- The number of entities drawn by the end of frame `t`. -/
def drawnBy (t : Nat) : Nat := c.initialEntities.toNat + t * c.spawnPerFrame.toNat

/-- The frame in which entity `k` is first moved. -/
def birth (k : Nat) : Nat :=
  if k < c.initialEntities.toNat then 1
  else (k - c.initialEntities.toNat) / c.spawnPerFrame.toNat + 1

/-- Entity `k` after `j` frames of its life. -/
def alone (k j : Nat) : Entity := (Entity.integrate m c.physics)^[j] (Entity.drawn m g k)

/-- Entity `k` has life left after each of its first `n` frames. -/
def LivesThrough (n k : Nat) : Prop := ∀ i, 1 ≤ i → i ≤ n → (alone c m g k i).life > 0

instance (n k : Nat) : Decidable (LivesThrough c m g n k) :=
  inferInstanceAs (Decidable (∀ i, 1 ≤ i → i ≤ n → (alone c m g k i).life > 0))

/-- Entity `k` is moved in frame `f`: it is born, and has had life left after every frame since. -/
def Processed (f k : Nat) : Prop :=
  birth c k ≤ f ∧ LivesThrough c m g (f - birth c k) k

instance (f k : Nat) : Decidable (Processed c m g f k) :=
  inferInstanceAs (Decidable (_ ∧ _))

/-- The numbers of the entities that are moved in frame `f`. -/
def processed (f : Nat) : List Nat := (List.range (drawnBy c f)).filter (Processed c m g f)

/-- The numbers of the entities that are left after frame `t`. -/
def survivors (t : Nat) : List Nat :=
  (List.range (drawnBy c t)).filter fun k =>
    Processed c m g t k ∧ (alone c m g k (t - birth c k + 1)).life > 0

/-- The entities moved in frame `f`, as they are after the move. -/
def moved (f : Nat) : List Entity :=
  (processed c m g f).map fun k => alone c m g k (f - birth c k + 1)

/-- What a run from `s` on has to be if every entity lives alone. Before the first frame the initial
entities are there as they were drawn. -/
structure Describes (s : Simulation) : Prop where
  initial : s.population.toList =
    (List.range c.initialEntities.toNat).map (Entity.drawn m g)
  population : ∀ t ≥ 1, (s.runFrames t).population.toList =
    (survivors c m g t).map fun k => alone c m g k (t - birth c k + 1)
  checksum : ∀ t, (s.runFrames t).checksum =
    ((List.range t).flatMap fun f => moved c m g (f + 1)).foldl Entity.addTo 0

variable {c m g}

theorem drawnBy_succ (t : Nat) : drawnBy c (t + 1) = drawnBy c t + c.spawnPerFrame.toNat := by
  rw [drawnBy, drawnBy, Nat.succ_mul, Nat.add_assoc]

theorem birth_pos (k : Nat) : 1 ≤ birth c k := by
  unfold birth
  split
  · exact Nat.le_refl 1
  · exact Nat.le_add_left 1 _

theorem birth_of_drawnBy {t k : Nat} (h : drawnBy c t ≤ k) (h' : k < drawnBy c (t + 1)) :
    birth c k = t + 1 := by
  have hk : ¬ k < c.initialEntities.toNat := by
    rw [Nat.not_lt]
    exact Nat.le_trans (Nat.le_add_right _ _) h
  rw [birth, if_neg hk, Nat.add_right_cancel_iff]
  rw [drawnBy] at h h'
  apply Nat.div_eq_of_lt_le <;> omega

theorem birth_drawnBy_add {t i : Nat} (hi : i < c.spawnPerFrame.toNat) :
    birth c (drawnBy c t + i) = t + 1 := by
  apply birth_of_drawnBy (Nat.le_add_right _ _)
  rw [drawnBy_succ]
  exact Nat.add_lt_add_left hi _

theorem birth_le {t k : Nat} (h : k < drawnBy c t) : birth c k ≤ max t 1 := by
  induction t with
  | zero =>
    have hk : k < c.initialEntities.toNat := by simpa [drawnBy] using h
    rw [birth, if_pos hk]
    exact Nat.le_max_right 0 1
  | succ t ih =>
    by_cases hk : k < drawnBy c t
    · have := ih hk
      omega
    · rw [birth_of_drawnBy (Nat.le_of_not_lt hk) h]
      exact Nat.le_max_left _ _

theorem alone_succ (k j : Nat) :
    alone c m g k (j + 1) = (alone c m g k j).integrate m c.physics :=
  Function.iterate_succ_apply' _ _ _

/-- Those of the entities drawn by the end of frame `t` that have had life left ever since. -/
def living (c : Config) (m : TileMap) (g : Generator) (t : Nat) : List Nat :=
  (List.range (drawnBy c t)).filter fun k => LivesThrough c m g (t + 1 - birth c k) k

theorem birth_le_of_mem_living {t k : Nat} (h : k ∈ living c m g t) : birth c k ≤ max t 1 :=
  birth_le (List.mem_range.1 (List.mem_filter.1 h).1)

theorem survivors_eq_living {t : Nat} (ht : 1 ≤ t) : survivors c m g t = living c m g t := by
  apply List.filter_congr
  intro k hk
  have hb : birth c k ≤ t := by
    have := birth_le (List.mem_range.1 hk)
    omega
  rw [decide_eq_decide]
  constructor
  · -- the frame in which the entity is found with life left is the last one to look at
    rintro ⟨⟨_, hlife⟩, hlast⟩ i hi hi'
    rcases Nat.lt_or_ge (t - birth c k) i with hlt | hge
    · rwa [show i = t - birth c k + 1 by omega]
    · exact hlife i hi hge
  · intro h
    exact ⟨⟨hb, fun i hi hi' => h i hi (by omega)⟩, h _ (by omega) (by omega)⟩

theorem processed_succ (t : Nat) :
    processed c m g (t + 1) = living c m g t ++
      (List.range c.spawnPerFrame.toNat).map (drawnBy c t + ·) := by
  have hold : (List.range (drawnBy c t)).filter (Processed c m g (t + 1)) = living c m g t := by
    apply List.filter_congr
    intro k hk
    have hb : birth c k ≤ t + 1 := by
      have := birth_le (List.mem_range.1 hk)
      omega
    rw [decide_eq_decide]
    exact and_iff_right hb
  -- a newborn has no earlier frame in which it could have been dropped
  have hnew : ((List.range c.spawnPerFrame.toNat).map (drawnBy c t + ·)).filter
      (Processed c m g (t + 1)) = (List.range c.spawnPerFrame.toNat).map (drawnBy c t + ·) := by
    apply List.filter_eq_self.2
    intro k hk
    obtain ⟨i, hi, rfl⟩ := List.mem_map.1 hk
    have hb : birth c (drawnBy c t + i) = t + 1 := birth_drawnBy_add (List.mem_range.1 hi)
    rw [decide_eq_true_eq]
    exact ⟨Nat.le_of_eq hb, fun j hj hj' => by omega⟩
  rw [processed, drawnBy_succ, List.range_add, List.filter_append, hold, hnew]

theorem living_succ (t : Nat) :
    living c m g (t + 1) = (processed c m g (t + 1)).filter fun k =>
      (alone c m g k (t + 1 - birth c k + 1)).life > 0 := by
  rw [← survivors_eq_living (Nat.le_add_left 1 t), survivors, processed, List.filter_filter]
  apply List.filter_congr
  intro k _
  rw [Bool.decide_and, Bool.and_comm]

/-- Where a run stands after `t` frames. -/
structure Follows (c : Config) (m : TileMap) (g : Generator) (t : Nat) (s : Simulation) : Prop where
  config : s.config = c
  physics : s.physics = c.physics
  map : s.map = m
  frame : s.frame = t
  generator : s.generator = g.skip (6 * drawnBy c t)
  population : s.population.toList = (living c m g t).map fun k => alone c m g k (t + 1 - birth c k)
  checksum : s.checksum =
    ((List.range t).flatMap fun f => moved c m g (f + 1)).foldl Entity.addTo 0

theorem living_zero : living c m g 0 = List.range c.initialEntities.toNat := by
  rw [living, drawnBy, Nat.zero_mul, Nat.add_zero]
  apply List.filter_eq_self.2
  intro k _
  have := birth_pos (c := c) k
  rw [decide_eq_true_eq]
  intro i hi hi'
  omega

theorem follows_populate : Follows c m g 0 (Simulation.populate c m g) where
  config := rfl
  physics := rfl
  map := rfl
  frame := rfl
  generator := by
    rw [drawnBy, Nat.zero_mul, Nat.add_zero]
    exact Simulation.populate_generator c m g
  population := by
    rw [living_zero, Simulation.populate_population]
    apply List.map_congr_left
    intro k _
    have := birth_pos (c := c) k
    rw [show 0 + 1 - birth c k = 0 by omega]
    rfl
  checksum := rfl

namespace Follows

variable {t : Nat} {s : Simulation} (h : Follows c m g t s)
include h

theorem get?_eq (i : Nat) : s.population.get? i =
    (living c m g t)[i]?.map fun k => alone c m g k (t + 1 - birth c k) := by
  rw [Population.get?_eq, h.population, List.getElem?_map]

theorem exists_number {i : Nat} {e : Entity} (he : s.population.get? i = some e) :
    ∃ k, (living c m g s.frame)[i]? = some k ∧ e = alone c m g k (s.frame + 1 - birth c k) := by
  rw [h.get?_eq, Option.map_eq_some_iff] at he
  obtain ⟨k, hk, rfl⟩ := he
  rw [h.frame]
  exact ⟨k, hk, rfl⟩

/-- After the first frame every entity has been moved in the frame of its birth and in each since. -/
theorem exists_age (ht : 1 ≤ t) {i : Nat} {e : Entity} (he : s.population.get? i = some e) :
    ∃ k n, (living c m g s.frame)[i]? = some k ∧ s.frame = birth c k + n ∧
      e = alone c m g k (n + 1) := by
  obtain ⟨k, hk, rfl⟩ := h.exists_number he
  rw [h.frame] at hk ⊢
  have hbirth : birth c k ≤ t :=
    Nat.le_trans (birth_le_of_mem_living (List.mem_of_getElem? hk))
      (Nat.max_le.2 ⟨Nat.le_refl t, ht⟩)
  refine ⟨k, t - birth c k, hk, (Nat.add_sub_cancel' hbirth).symm, ?_⟩
  rw [Nat.sub_add_comm hbirth]

theorem joined_eq :
    s.joined = (processed c m g (t + 1)).map fun k => alone c m g k (t + 1 - birth c k) := by
  have hspawned : (List.range c.spawnPerFrame.toNat).map (Entity.drawn m s.generator) =
      ((List.range c.spawnPerFrame.toNat).map (drawnBy c t + ·)).map
        fun k => alone c m g k (t + 1 - birth c k) := by
    rw [List.map_map]
    apply List.map_congr_left
    intro i hi
    have hb : birth c (drawnBy c t + i) = t + 1 := birth_drawnBy_add (List.mem_range.1 hi)
    rw [Function.comp_apply, hb, Nat.sub_self, h.generator, Entity.drawn_skip]
    rfl
  rw [Simulation.joined_eq, h.config, h.map, hspawned, h.population, processed_succ,
    List.map_append]

theorem moved_eq : s.moved = moved c m g (t + 1) := by
  rw [Simulation.moved, h.joined_eq, h.map, h.physics, List.map_map, moved]
  apply List.map_congr_left
  intro k _
  exact (alone_succ k _).symm

theorem step : Follows c m g (t + 1) s.step.2 where
  config := h.config
  physics := h.physics
  map := h.map
  frame := congrArg (· + 1) h.frame
  generator := by
    rw [Simulation.step_generator, h.generator, h.config, ← Generator.skip_add, ← Nat.mul_add,
      drawnBy_succ]
  population := by
    have hage : ∀ k ∈ living c m g (t + 1), t + 1 - birth c k + 1 = t + 1 + 1 - birth c k := by
      intro k hk
      have := birth_le_of_mem_living hk
      omega
    rw [Simulation.step_population, h.moved_eq, moved, List.filter_map, living_succ]
    apply List.map_congr_left
    intro k hk
    rw [hage k (by rw [living_succ]; exact hk)]
  checksum := by
    rw [Simulation.step_checksum, h.moved_eq, h.checksum, List.range_succ, List.flatMap_append,
      List.foldl_append, List.flatMap_singleton]

end Follows

theorem follows_runFrames (t : Nat) :
    Follows c m g t ((Simulation.populate c m g).runFrames t) := by
  -- the induction is on the frames; `Follows` says enough about one frame to make the next
  induction t with
  | zero => exact follows_populate
  | succ t ih =>
    rw [Simulation.runFrames_succ]
    exact ih.step

/-- However many frames a run makes, it is the run in which every entity lives alone. -/
theorem everyRun_describes (c : Config) (hc : c.validate = .ok ()) : c.EveryRun (Describes c) := by
  apply Config.everyRun_of_populate hc
  intro m g
  refine ⟨?_, ?_, fun t => (follows_runFrames t).checksum⟩
  · exact Population.toList_spawnMany _ _ _ _
  · intro t ht
    rw [(follows_runFrames t).population, survivors_eq_living ht]
    apply List.map_congr_left
    intro k hk
    have := birth_le_of_mem_living hk
    rw [show t + 1 - birth c k = t - birth c k + 1 by omega]

theorem default_everyRun_describes :
    ({} : Config).validate = .ok () ∧ ({} : Config).EveryRun (Describes {}) :=
  ⟨rfl, everyRun_describes {} rfl⟩

/-- Before the first frame no entity has been moved, so the list of those that were moved and have
life left is empty while the initial entities are there. -/
theorem survivors_before_first_frame :
    ¬ ∀ c : Config, c.validate = .ok () → c.EveryRun fun m g s => ∀ t,
      (s.runFrames t).population.toList =
        (survivors c m g t).map fun k => alone c m g k (t - birth c k + 1) := by
  intro h
  have hc : ({ initialEntities := 1 } : Config).validate = .ok () := rfl
  obtain ⟨⟨s, hs, hpop⟩, _⟩ := h _ hc
  rw [Simulation.start, hc] at hs
  cases hs
  have hlen := congrArg List.length (hpop 0)
  rw [(follows_runFrames 0).population, List.length_map, List.length_map, living_zero] at hlen
  have hnone (m : TileMap) (g : Generator) : survivors { initialEntities := 1 } m g 0 = [] := by
    apply List.filter_eq_nil_iff.2
    intro k _
    rw [decide_eq_true_eq]
    rintro ⟨⟨hb, _⟩, _⟩
    exact Nat.not_succ_le_zero 0 (Nat.le_trans (birth_pos k) hb)
  rw [hnone] at hlen
  cases hlen

end TileWorld.Solitary
