import TileWorld.Proofs.Config.Validity
import TileWorld.Proofs.Entity.Placement
import TileWorld.Proofs.Motion.Finite
import TileWorld.Proofs.Simulation.Bounds

/-! Which numbers of a run are finite. The life and the vertical motion of an entity always are, and
its place across is as long as the speed across is a number. That speed is finite in every frame of
a life if friction at most doubles it in one frame, because a life ends after 900 of them. The
checksum is finite then in a run of any length: it stops growing before it overflows. -/

namespace TileWorld

theorem Config.sound_physics {c : Config} (hc : c.Valid) : c.physics.Sound := by
  obtain ⟨d, hd⟩ := (Binary.isFinite_iff _).1 hc.timestep.1
  exact ⟨⟨d, hd, (Binary.lt_iff Binary.value?_zero hd).1 hc.timestep.2⟩,
    (Binary.isFinite_iff _).1 hc.gravity⟩

namespace Entity
open Binary

structure AllFinite (e : Entity) : Prop where
  position : e.pos.x.isFinite ∧ e.pos.y.isFinite
  velocity : e.vel.x.isFinite ∧ e.vel.y.isFinite
  life : e.life.isFinite

theorem isFinite_of_within {b : ℚ} {x : Float} (h : Within b x) : x.isFinite := by
  obtain ⟨q, hq, -⟩ := h
  exact (isFinite_iff x).2 ⟨q, hq⟩

/-- What an entity of bounded speed adds is too little for the sum to pass the bound. -/
theorem within_addTo {s : Float} {e : Entity} (h : Within (2 ^ 960) s) (he : e.Tame)
    (hspeed : Within (2 ^ 904) e.vel.x) : Within (2 ^ 960) (e.addTo s) := by
  have hadd {s x : Float} {j : ℕ} (hs : Within (2 ^ 960) s) (hx : Within (2 ^ j) x)
      (hj : j ≤ 904) : Within (2 ^ 960) (s + x) :=
    hs.add_small (k := 908) hx (by omega) (by norm_num)
  have ⟨v, hv, _⟩ := hspeed
  have hplace : Within (2 ^ 34) e.pos.x := he.across (isNaN_of_value? hv)
  have hplaces := hadd (hadd h hplace (by norm_num)) he.height (by norm_num)
  exact hadd (hadd hplaces hspeed le_rfl) he.fall (by norm_num)

theorem within_foldl_addTo {s : Float} {es : List Entity} (h : Within (2 ^ 960) s)
    (hes : ∀ e ∈ es, e.Tame ∧ Within (2 ^ 904) e.vel.x) : Within (2 ^ 960) (es.foldl addTo s) := by
  induction es generalizing s with
  | nil => exact h
  | cons e es ih =>
    obtain ⟨he, hrest⟩ := List.forall_mem_cons.1 hes
    exact ih (within_addTo h he.1 he.2) hrest

theorem tame_drawn {m : TileMap} (hm : m.Small) (g : Generator) (k : ℕ) : (drawn m g k).Tame := by
  refine ⟨?_, ?_, fun _ => ?_⟩
  · rw [drawn_pos]
    exact within_place _ hm.height
  · exact (within_drawn_vel g k).2.mono (by norm_num)
  · rw [drawn_pos]
    exact within_place _ hm.width

end Entity

namespace Solitary
open Binary Entity

variable {c : Config} {m : TileMap} {g : Generator} {k t : ℕ}

theorem tame_alone (hp : c.physics.Sound) (hm : m.Small) (j : ℕ) : (alone c m g k j).Tame := by
  induction j with
  | zero => exact tame_drawn hm g k
  | succ j ih =>
    rw [alone_succ]
    exact ih.integrate hp hm

/-- The speed across is doubled in every frame at most. -/
theorem within_alone_speed (hp : c.physics.Damped) {j : ℕ} (hj : j ≤ 900) :
    Within (2 ^ (4 + j)) (alone c m g k j).vel.x := by
  induction j with
  | zero => exact (within_drawn_vel g k).1
  | succ j ih =>
    rw [alone_succ]
    exact speed_integrate (k := 4 + j) hp (by omega) (ih (by omega))

theorem within_speed_of_le (hp : c.physics.Damped) {j : ℕ} (hj : j ≤ ⌈lifetime g k⌉₊) :
    Within (2 ^ 904) (alone c m g k j).vel.x := by
  have hframes := (ceil_lifetime_bounds g k).2
  exact (within_alone_speed hp (by omega)).mono (by omega)

theorem mem_moved {f : ℕ} {e : Entity} (he : e ∈ moved c m g f) :
    ∃ k j, e = alone c m g k j ∧ j ≤ ⌈lifetime g k⌉₊ := by
  obtain ⟨k, hk, rfl⟩ := List.mem_map.1 he
  rw [processed, List.mem_filter, decide_eq_true_eq] at hk
  have hlives := (livesThrough_iff _).1 hk.2.2
  exact ⟨k, _, rfl, hlives⟩

theorem mem_population {s : Simulation} (h : Follows c m g t s) {e : Entity}
    (he : e ∈ s.population.toList) : ∃ k j, e = alone c m g k j ∧ j ≤ ⌈lifetime g k⌉₊ := by
  rw [h.population] at he
  obtain ⟨k, hk, rfl⟩ := List.mem_map.1 he
  exact ⟨k, _, rfl, (mem_living.1 hk).2.le⟩

theorem within_checksum {s : Simulation} (h : Follows c m g t s) (hs : c.physics.Sound)
    (hp : c.physics.Damped) (hm : m.Small) : Within (2 ^ 960) s.checksum := by
  rw [h.checksum]
  apply within_foldl_addTo
  · exact within_zero 960
  · intro e he
    obtain ⟨f, -, hf⟩ := List.mem_flatMap.1 he
    obtain ⟨k, j, rfl, hj⟩ := mem_moved hf
    exact ⟨tame_alone hs hm j, within_speed_of_le hp hj⟩

end Solitary

namespace Simulation
open Binary Entity Solitary

/-- In every state of a run the life and the vertical motion of all entities are finite, and the
horizontal position is unless the speed is no number. With friction that at most doubles a speed in
one frame, everything is finite, and the checksum with it. -/
theorem start_finite (c : Config) (hc : c.validate = .ok ()) :
    ∃ s, start c = .ok s ∧ ∀ calls : List Call,
      (∀ e ∈ (calls.foldl call s).population.toList, e.pos.y.isFinite ∧ e.vel.y.isFinite ∧
        e.life.isFinite ∧ (e.vel.x.isNaN = false → e.pos.x.isFinite)) ∧
      (c.physics.Damped → (calls.foldl call s).checksum.isFinite ∧
        ∀ e ∈ (calls.foldl call s).population.toList, e.AllFinite) := by
  refine ⟨_, start_eq hc, fun calls => ?_⟩
  have hsound := Config.sound_physics (Config.validate_eq_ok_iff.1 hc)
  have hm : (TileMap.random c.width.toNat c.height.toNat c.solidProbability ⟨c.seed⟩).1.Small :=
    ⟨c.width.toNat_lt, c.height.toNat_lt⟩
  generalize (TileMap.random c.width.toNat c.height.toNat c.solidProbability ⟨c.seed⟩).1 = m at hm ⊢
  generalize ((⟨c.seed⟩ : Generator).skip (c.width.toNat * c.height.toNat)) = g
  obtain ⟨t, ht⟩ := exists_foldl_call (populate c m g) calls
  have hfollows : Follows c m g t ((populate c m g).runFrames t) := follows_runFrames t
  rw [ht]
  have hlife {k j : ℕ} (hj : j ≤ ⌈lifetime g k⌉₊) : (alone c m g k j).life.isFinite :=
    (isFinite_iff _).2 ⟨_, value?_alone_life hj⟩
  refine ⟨?_, fun hp => ⟨isFinite_of_within (within_checksum hfollows hsound hp hm), ?_⟩⟩
  · intro e he
    obtain ⟨k, j, rfl, hj⟩ := mem_population hfollows he
    have htame : (alone c m g k j).Tame := tame_alone hsound hm j
    exact ⟨isFinite_of_within htame.height, isFinite_of_within htame.fall, hlife hj,
      fun hspeed => isFinite_of_within (htame.across hspeed)⟩
  · intro e he
    obtain ⟨k, j, rfl, hj⟩ := mem_population hfollows he
    have htame : (alone c m g k j).Tame := tame_alone hsound hm j
    have hspeed : Within (2 ^ 904) (alone c m g k j).vel.x := within_speed_of_le hp hj
    obtain ⟨v, hv, -⟩ := hspeed
    have hplace : Within (2 ^ 34) (alone c m g k j).pos.x := htame.across (isNaN_of_value? hv)
    exact ⟨⟨isFinite_of_within hplace, isFinite_of_within htame.height⟩,
      ⟨(isFinite_iff _).2 ⟨v, hv⟩, isFinite_of_within htame.fall⟩, hlife hj⟩

theorem default_start_finite :
    ({} : Config).validate = .ok () ∧ ({} : Config).physics.Damped ∧
      ∃ s, start {} = .ok s ∧ ∀ calls : List Call, (calls.foldl call s).checksum.isFinite ∧
        ∀ e ∈ (calls.foldl call s).population.toList, e.AllFinite := by
  have hdamped : ({} : Config).physics.Damped := by decide +kernel
  obtain ⟨s, hs, hfinite⟩ := start_finite {} rfl
  exact ⟨rfl, hdamped, s, hs, fun calls => (hfinite calls).2 hdamped⟩

/-- A frame so long that friction in it is infinite, and one entity without any speed across. -/
def endless : Config :=
  { initialEntities := 1, spawnPerFrame := 0, width := 1, height := 1, seed := 3945590710
    dt := 1e308 }

/-- An infinite damping times no speed is no number. -/
theorem not_start_finite_of_endless :
    ¬ ∀ c : Config, c.validate = .ok () → ∃ s, start c = .ok s ∧ ∀ t,
      (s.runFrames t).checksum.isFinite ∧ ∀ e ∈ (s.runFrames t).population.toList, e.AllFinite := by
  intro h
  obtain ⟨s, hs, hfinite⟩ := h endless (by decide +kernel)
  have hchecksum : (start endless).toOption.map (fun s => (s.runFrames 1).checksum.isFinite) =
      some false := by decide +kernel
  rw [hs] at hchecksum
  exact Bool.false_ne_true ((Option.some_inj.1 hchecksum).symm.trans (hfinite 1).1)

end Simulation

end TileWorld
