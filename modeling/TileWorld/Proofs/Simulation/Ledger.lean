import Mathlib.Algebra.Group.Nat.Defs
import TileWorld.Proofs.Simulation.Frames

/-! The counters of a run: what each of them is after any number of frames, how they balance, and
that they fit into machine words. For the last, the frame is made a second time with every addition
and subtraction of a counter checked, and it never fails. -/

namespace TileWorld

/-- A sum that fails where it has more than `bits` binary digits. -/
def sum? (bits a b : Nat) : Option Nat := if a + b < 2 ^ bits then some (a + b) else none

/-- A difference that fails where it would be negative. -/
def difference? (a b : Nat) : Option Nat := if b ≤ a then some (a - b) else none

theorem sum?_eq {bits a b : Nat} (h : a + b < 2 ^ bits) : sum? bits a b = some (a + b) := if_pos h

theorem difference?_eq {a b : Nat} (h : b ≤ a) : difference? a b = some (a - b) := if_pos h

theorem sum?_eq_some_iff {bits a b n : Nat} :
    sum? bits a b = some n ↔ a + b < 2 ^ bits ∧ a + b = n := by
  simp [sum?]

theorem difference?_eq_some_iff {a b n : Nat} : difference? a b = some n ↔ b ≤ a ∧ a - b = n := by
  simp [difference?]

namespace Sweep
variable {σ : Type} (visit : σ → Entity → Visit σ)

/-- Visits one row with both cursors held in words of 64 bits. -/
def advanceWord? (s : Sweep σ) : Option (Sweep σ) :=
  match s.columns.row? s.read with
  | none => some s
  | some e => do
    let v := visit s.state e
    let read ← sum? 64 s.read 1
    if v.keep then
      let write ← sum? 64 s.write 1
      return ⟨s.columns.setRow s.write v.entity, read, write, v.state⟩
    else
      return ⟨s.columns, read, s.write, v.state⟩

def runWord? : Nat → Sweep σ → Option (Sweep σ)
  | 0, s => some s
  | n + 1, s => s.advanceWord? visit >>= runWord? n

theorem advanceWord?_eq {s : Sweep σ} (hw : s.write ≤ s.read) (hr : s.read + 1 < 2 ^ 64) :
    s.advanceWord? visit = some (s.advance visit) := by
  obtain ⟨c, read, write, state⟩ := s
  have hread : sum? 64 read 1 = some (read + 1) := sum?_eq hr
  have hwrite : sum? 64 write 1 = some (write + 1) :=
    sum?_eq (Nat.lt_of_le_of_lt (Nat.succ_le_succ hw) hr)
  simp only [advanceWord?, advance]
  cases c.row? read with
  | none => rfl
  | some e =>
    simp only [hread, hwrite, Option.bind_eq_bind, Option.bind_some]
    obtain ⟨state', e', keep⟩ := visit state e
    cases keep <;> rfl

theorem Progress.runWord?_eq {visit : σ → Entity → Visit σ} {init : σ} {es : List Entity}
    {s : Sweep σ} (h : Progress visit init es s) (hes : es.length < 2 ^ 64) (n : Nat)
    (hn : s.read + n ≤ es.length) : s.runWord? visit n = some (s.run visit n) := by
  induction n generalizing s with
  | zero => rfl
  | succ n ih =>
    obtain ⟨ha, hread⟩ := h.advance (by omega)
    have hrest := ih ha (by omega)
    rw [runWord?, advanceWord?_eq visit h.write_le (by omega)]
    exact hrest

end Sweep

theorem Population.runWord?_eq {σ : Type} (visit : σ → Entity → Visit σ) (state : σ)
    (p : Population) (h : p.size < 2 ^ 64) :
    (Sweep.start p.columns state).runWord? visit p.size =
      some ((Sweep.start p.columns state).run visit p.size) := by
  have hlen := p.length_toList
  refine (Sweep.progress_start p.aligned).runWord?_eq ?_ p.size ?_
  · exact Nat.lt_of_le_of_lt (Nat.le_of_eq hlen) h
  · exact Nat.le_of_eq ((Nat.zero_add _).trans hlen.symm)

namespace Simulation

/-- A frame with its counters in machine words, of 32 bits for the frames and of 64 bits for what is
counted in them. It fails where an addition or a subtraction leaves its word. -/
def stepWord? (s : Simulation) : Option (FrameStats × Simulation) := do
  let spawned := s.config.spawnPerFrame.toNat
  let (population, generator) := s.population.spawnMany s.map spawned s.generator
  let processed := population.size
  let _ ← (Sweep.start population.columns s.checksum).runWord? (visit s.map s.physics) processed
  let (checksum, population) := population.sweep (visit s.map s.physics) s.checksum
  let active := population.size
  let grounded := population.groundedCount
  let frame ← sum? 32 s.frame 1
  let dropped ← difference? processed active
  let totalSpawned ← sum? 64 s.totalSpawned spawned
  let totalDropped ← sum? 64 s.totalDropped dropped
  return ({ frame, spawned, processed, dropped, active, grounded },
    { s with
      population, generator, frame, checksum, totalSpawned, totalDropped
      peakActive := max s.peakActive processed })

def runFramesWord? : Nat → Simulation → Option Simulation
  | 0, s => some s
  | n + 1, s => s.stepWord? >>= fun made => runFramesWord? n made.2

def callWord? (s : Simulation) : Call → Option Simulation
  | .step => s.stepWord?.map Prod.snd
  | .runFrames n => s.runFramesWord? n.toNat
  | .run => s.runFramesWord? (s.config.frames.toNat - s.frame)

/-- The counters of the state `s` that a run from `s₀` has reached with `t` frames. -/
structure Balanced (c : Config) (s₀ : Simulation) (t : Nat) (s : Simulation) : Prop where
  config : s.config = c
  frame : s.frame = t
  totalSpawned : s.totalSpawned = c.initialEntities.toNat + s.frame * c.spawnPerFrame.toNat
  active : s.totalDropped ≤ s.totalSpawned ∧ s.totalSpawned - s.totalDropped = s.activeCount
  peakActive : s.peakActive =
    ((List.range t).map fun f => (s₀.runFrames f).step.1.processed).foldl max
      c.initialEntities.toNat
  active_le_peak : s.activeCount ≤ s.peakActive
  peak_le_spawned : s.peakActive ≤ s.totalSpawned

/-- The counters of the frame that comes after the state `s`. -/
structure Counted (c : Config) (s : Simulation) : Prop where
  frame : s.step.1.frame = s.step.2.frame
  spawned : s.step.1.spawned = c.spawnPerFrame.toNat
  processed : s.step.1.processed = s.activeCount + s.step.1.spawned
  active : s.step.1.active = s.step.2.activeCount
  active_le : s.step.1.active ≤ s.step.1.processed
  dropped : s.step.1.dropped = s.step.1.processed - s.step.1.active
  grounded : s.step.1.grounded = s.step.2.population.toList.countP (·.grounded)
  grounded_le : s.step.1.grounded ≤ s.step.1.active

theorem counted (s : Simulation) : Counted s.config s where
  frame := rfl
  spawned := rfl
  processed := by
    rw [step_stats]
    exact s.length_joined
  active := rfl
  active_le := by
    rw [step_stats]
    exact s.step_activeCount_le
  dropped := rfl
  grounded := s.step.2.population.groundedCount_eq
  grounded_le := by
    rw [step_stats, Population.groundedCount_eq, activeCount_eq]
    exact List.countP_le_length

theorem balanced_populate (c : Config) (m : TileMap) (g : Generator) (s₀ : Simulation) :
    Balanced c s₀ 0 (populate c m g) := by
  have hactive : (populate c m g).activeCount = c.initialEntities.toNat := by
    rw [activeCount_eq, populate_population, List.length_map, List.length_range]
  refine ⟨rfl, rfl, ?_, ⟨Nat.zero_le _, hactive.symm⟩, rfl, Nat.le_of_eq hactive, Nat.le_refl _⟩
  exact (Nat.add_zero _).symm.trans (congrArg _ (Nat.zero_mul _).symm)

theorem Balanced.step {c : Config} {s₀ : Simulation} {t : Nat}
    (h : Balanced c s₀ t (s₀.runFrames t)) : Balanced c s₀ (t + 1) (s₀.runFrames (t + 1)) := by
  rw [runFrames_succ]
  obtain ⟨hconfig, hframe, hspawned, ⟨hdropped, hactive⟩, hpeak, hactivePeak, hpeakSpawned⟩ := h
  have hjoined := (s₀.runFrames t).length_joined
  have hle := (s₀.runFrames t).step_activeCount_le
  have hprocessed : (s₀.runFrames t).step.1.processed = (s₀.runFrames t).joined.length := by
    rw [step_stats]
  rw [hconfig] at hjoined
  refine ⟨hconfig, congrArg (· + 1) hframe, ?_, ?_, ?_, ?_, ?_⟩
  · rw [step_totalSpawned, step_frame, hspawned, hconfig, Nat.succ_mul, Nat.add_assoc]
  · rw [step_totalSpawned, step_totalDropped, hconfig]
    omega
  · rw [step_peakActive, hpeak, List.range_succ, List.map_append, List.foldl_append, List.map_cons,
      List.map_nil, List.foldl_cons, List.foldl_nil, hprocessed]
  · rw [step_peakActive]
    omega
  · rw [step_peakActive, step_totalSpawned, hconfig]
    omega

theorem balanced_runFrames (c : Config) (m : TileMap) (g : Generator) (t : Nat) :
    Balanced c (populate c m g) t ((populate c m g).runFrames t) := by
  induction t with
  | zero => exact balanced_populate c m g _
  | succ t ih => exact ih.step

theorem spawned_lt (c : Config) {t : Nat} (ht : t < 2 ^ 32) :
    c.initialEntities.toNat + t * c.spawnPerFrame.toNat < 2 ^ 64 := by
  have hinitial := c.initialEntities.toNat_lt
  have hspawned := c.spawnPerFrame.toNat_lt
  have hproduct : t * c.spawnPerFrame.toNat ≤ (2 ^ 32 - 1) * (2 ^ 32 - 1) :=
    Nat.mul_le_mul (Nat.le_sub_one_of_lt ht) (Nat.le_sub_one_of_lt hspawned)
  omega

/-- No counter leaves its word in a frame whose number fits. All others are bounded by the number of
entities spawned. -/
theorem Balanced.stepWord?_eq {c : Config} {s₀ s : Simulation} {t : Nat} (h : Balanced c s₀ t s)
    (ht : t + 1 < 2 ^ 32) : s.stepWord? = some s.step := by
  obtain ⟨hconfig, hframe, hspawned, ⟨hdropped, hactive⟩, -, -, -⟩ := h
  have hlt := spawned_lt c ht
  rw [Nat.succ_mul] at hlt
  rw [hframe] at hspawned
  let p := (s.population.spawnMany s.map s.config.spawnPerFrame.toNat s.generator).1
  let q := (p.sweep (visit s.map s.physics) s.checksum).2
  have hjoined : s.joined.length = p.size := Population.length_toList p
  have hp : p.size = s.activeCount + c.spawnPerFrame.toNat := by
    rw [← hjoined, length_joined, hconfig]
  have hq : q.size ≤ p.size := by
    rw [← hjoined]
    exact s.step_activeCount_le
  have hsweep := Population.runWord?_eq (visit s.map s.physics) s.checksum p (by omega)
  have hframe : sum? 32 s.frame 1 = some (s.frame + 1) := sum?_eq (by omega)
  have hdifference : difference? p.size q.size = some (p.size - q.size) := difference?_eq hq
  have htotal : sum? 64 s.totalSpawned s.config.spawnPerFrame.toNat =
      some (s.totalSpawned + s.config.spawnPerFrame.toNat) := sum?_eq (by rw [hconfig]; omega)
  have hdrop : sum? 64 s.totalDropped (p.size - q.size) =
      some (s.totalDropped + (p.size - q.size)) := sum?_eq (by omega)
  simp only [p, q] at hsweep hdifference hdrop
  simp only [stepWord?, hsweep, hframe, hdifference, htotal, hdrop, Option.bind_eq_bind,
    Option.bind_some]
  rfl

theorem runFramesWord?_eq (c : Config) (m : TileMap) (g : Generator) (t n : Nat)
    (hn : t + n < 2 ^ 32) :
    ((populate c m g).runFrames t).runFramesWord? n =
      some ((populate c m g).runFrames (t + n)) := by
  induction n generalizing t with
  | zero => rfl
  | succ n ih =>
    have hstep := (balanced_runFrames c m g t).stepWord?_eq (by omega)
    rw [runFramesWord?, hstep]
    refine (congrArg _ (runFrames_succ t _).symm).trans ?_
    rw [ih (t + 1) (by omega), Nat.add_right_comm]
    rfl

theorem callWord?_eq (c : Config) (m : TileMap) (g : Generator) (t : Nat) (k : Call)
    (hk : t + k.frames ((populate c m g).runFrames t) < 2 ^ 32) :
    ((populate c m g).runFrames t).callWord? k = some (((populate c m g).runFrames t).call k) := by
  rw [call_eq, ← runFrames_add]
  cases k with
  | step =>
    rw [callWord?, (balanced_runFrames c m g t).stepWord?_eq hk]
    exact congrArg some (runFrames_succ t _).symm
  | runFrames n => exact runFramesWord?_eq c m g t _ hk
  | run => exact runFramesWord?_eq c m g t _ hk

theorem foldlM_callWord?_eq (c : Config) (m : TileMap) (g : Generator) (t : Nat) (calls : List Call)
    (hcalls : t + framesMade ((populate c m g).runFrames t) calls < 2 ^ 32) :
    calls.foldlM callWord? ((populate c m g).runFrames t) =
      some (calls.foldl call ((populate c m g).runFrames t)) := by
  induction calls generalizing t with
  | nil => rfl
  | cons k calls ih =>
    rw [framesMade, call_eq, ← runFrames_add] at hcalls
    have hk := callWord?_eq c m g t k (by omega)
    rw [call_eq, ← runFrames_add] at hk
    rw [List.foldlM_cons, hk, List.foldl_cons, call_eq, ← runFrames_add]
    exact ih _ (by omega)

theorem eq_step_of_stepWord? {s : Simulation} {made : FrameStats × Simulation}
    (h : s.stepWord? = some made) : made = s.step ∧ s.frame + 1 < 2 ^ 32 := by
  simp only [stepWord?, Option.bind_eq_bind, Option.bind_eq_some_iff, sum?_eq_some_iff,
    difference?_eq_some_iff] at h
  obtain ⟨_, -, _, ⟨hframe, rfl⟩, _, ⟨-, rfl⟩, _, ⟨-, rfl⟩, _, ⟨-, rfl⟩, hmade⟩ := h
  exact ⟨(Option.some.inj hmade).symm, hframe⟩

theorem eq_runFrames_of_runFramesWord? {s s' : Simulation} {n : Nat} (hs : s.frame < 2 ^ 32)
    (h : s.runFramesWord? n = some s') : s' = s.runFrames n ∧ s'.frame < 2 ^ 32 := by
  induction n generalizing s with
  | zero =>
    cases h
    exact ⟨rfl, hs⟩
  | succ n ih =>
    obtain ⟨made, hmade, hrest⟩ := Option.bind_eq_some_iff.1 h
    obtain ⟨rfl, hframe⟩ := eq_step_of_stepWord? hmade
    exact ih hframe hrest

theorem eq_call_of_callWord? {s s' : Simulation} {k : Call} (hs : s.frame < 2 ^ 32)
    (h : s.callWord? k = some s') : s' = s.call k ∧ s'.frame < 2 ^ 32 := by
  cases k with
  | step =>
    obtain ⟨made, hmade, rfl⟩ := Option.map_eq_some_iff.1 h
    obtain ⟨rfl, hframe⟩ := eq_step_of_stepWord? hmade
    exact ⟨rfl, hframe⟩
  | runFrames n => exact eq_runFrames_of_runFramesWord? hs h
  | run => exact eq_runFrames_of_runFramesWord? hs h

theorem eq_foldl_of_foldlM_callWord? {s s' : Simulation} {calls : List Call}
    (hs : s.frame < 2 ^ 32) (h : calls.foldlM callWord? s = some s') :
    s' = calls.foldl call s ∧ s'.frame < 2 ^ 32 := by
  induction calls generalizing s with
  | nil =>
    cases h
    exact ⟨rfl, hs⟩
  | cons k calls ih =>
    rw [List.foldlM_cons] at h
    obtain ⟨s'', hcall, hrest⟩ := Option.bind_eq_some_iff.1 h
    obtain ⟨rfl, hframe⟩ := eq_call_of_callWord? hs hcall
    exact ih hframe hrest

/-- Calls come to an end as long as the number of their frames is a word of 32 bits. -/
theorem exists_foldlM_callWord?_iff (c : Config) (m : TileMap) (g : Generator)
    (calls : List Call) : (∃ s', calls.foldlM callWord? (populate c m g) = some s') ↔
      framesMade (populate c m g) calls < 2 ^ 32 := by
  constructor
  · rintro ⟨s', h⟩
    obtain ⟨rfl, hframe⟩ := eq_foldl_of_foldlM_callWord? (by decide : 0 < 2 ^ 32) h
    rwa [foldl_call_eq, (balanced_runFrames c m g _).frame] at hframe
  · intro hcalls
    exact ⟨_, foldlM_callWord?_eq c m g 0 calls (by rwa [Nat.zero_add])⟩

/-- What holds of the state that calls with fewer than `2 ^ 32` frames in all have led to. -/
structure Ledger (c : Config) (s₀ : Simulation) (calls : List Call) : Prop where
  state : calls.foldl call s₀ = s₀.runFrames (framesMade s₀ calls)
  balanced : Balanced c s₀ (framesMade s₀ calls) (calls.foldl call s₀)
  counted : Counted c (calls.foldl call s₀)
  word : calls.foldlM callWord? s₀ = some (calls.foldl call s₀)
  fits : (calls.foldl call s₀).frame < 2 ^ 32 ∧ (calls.foldl call s₀).totalSpawned < 2 ^ 64

/-- However a run is driven, its counters balance and fit into their words as long as the number of
its frames fits into 32 bits. -/
theorem everyRun_ledger (c : Config) (hc : c.validate = .ok ()) :
    c.EveryRun fun _ _ s₀ => ∀ calls, framesMade s₀ calls < 2 ^ 32 → Ledger c s₀ calls := by
  apply Config.everyRun_of_populate hc
  intro m g calls hcalls
  have hstate := foldl_call_eq (populate c m g) calls
  have hbalanced := balanced_runFrames c m g (framesMade (populate c m g) calls)
  rw [← hstate] at hbalanced
  have hcounted := counted (calls.foldl call (populate c m g))
  rw [hbalanced.config] at hcounted
  refine ⟨hstate, hbalanced, hcounted, ?_, ?_, ?_⟩
  · exact foldlM_callWord?_eq c m g 0 calls (by rwa [Nat.zero_add])
  · rwa [hbalanced.frame]
  · rw [hbalanced.totalSpawned, hbalanced.frame]
    exact spawned_lt c hcalls

/-- As many entities as can be asked for. -/
def crowded : Config := { initialEntities := 4294967295, spawnPerFrame := 4294967295 }

theorem crowded_everyRun_ledger :
    let calls : List Call := [.step, .runFrames 4294967294]
    crowded.validate = .ok () ∧
      crowded.EveryRun fun _ _ s₀ => framesMade s₀ calls < 2 ^ 32 ∧ Ledger crowded s₀ calls := by
  intro calls
  have hcalls (s₀ : Simulation) : framesMade s₀ calls < 2 ^ 32 := by
    change 1 + (4294967294 + 0) < 2 ^ 32
    decide
  exact ⟨rfl, (everyRun_ledger crowded rfl).imp fun _ _ s₀ h => ⟨hcalls s₀, h calls (hcalls s₀)⟩⟩

end Simulation

end TileWorld
