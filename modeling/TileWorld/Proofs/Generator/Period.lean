import Mathlib.Algebra.Ring.Periodic
import Mathlib.Data.Nat.Prime.Basic
import Mathlib.Dynamics.PeriodicPts.Lemmas
import Mathlib.Order.Interval.Finset.Nat
import Mathlib.Tactic.NormNum.Prime
import TileWorld.Proofs.Generator.Linear

/-! The period of the generator. From one, all `2 ^ 32 - 1` words but zero are run through before
one comes again, and so the same holds from each of them. That no fewer steps lead back to one is
looked up at the greatest proper divisors of that number only. -/

namespace Function

/-- A period that is none any more when it is divided by one of its prime factors is the least. -/
theorem minimalPeriod_eq_of_prime {α : Type} {f : α → α} {x : α} {n : ℕ}
    (h : IsPeriodicPt f n x)
    (hprime : ∀ p, p.Prime → p ∣ n → ¬ IsPeriodicPt f (n / p) x) : minimalPeriod f x = n := by
  obtain ⟨k, hk⟩ := h.minimalPeriod_dvd
  by_contra hne
  have hk1 : k ≠ 1 := by
    rintro rfl
    exact hne (hk.trans (Nat.mul_one _)).symm
  obtain ⟨p, hp, j, rfl⟩ := Nat.exists_prime_and_dvd hk1
  have hdiv : n / p = minimalPeriod f x * j := by
    rw [hk, Nat.mul_left_comm, Nat.mul_div_cancel_left _ hp.pos]
  refine hprime p hp ⟨minimalPeriod f x * j, by rw [hk, Nat.mul_left_comm]⟩ ?_
  rw [hdiv]
  exact (isPeriodicPt_minimalPeriod f x).mul_const j

end Function

namespace TileWorld.Generator
open Function

/-- The state after `n` draws. -/
def stateAfter (g : Generator) (n : ℕ) : UInt32 := ((fun g : Generator => g.draw.2)^[n] g).state

theorem stateAfter_eq (g : Generator) (n : ℕ) : g.stateAfter n = step^[n] g.state := by
  induction n with
  | zero => rfl
  | succ n ih =>
    rw [iterate_succ_apply', ← ih, stateAfter, iterate_succ_apply']
    rfl

theorem eq_of_prime_dvd {p : ℕ} (hp : p.Prime) (h : p ∣ 2 ^ 32 - 1) :
    p ∈ [3, 5, 17, 257, 65537] := by
  have hfactors : 2 ^ 32 - 1 = 3 * 5 * 17 * 257 * 65537 := by decide
  have heq {q : ℕ} (hq : q.Prime) (h : p ∣ q) : p = q := (Nat.prime_dvd_prime_iff_eq hp hq).1 h
  rw [hfactors, hp.dvd_mul, hp.dvd_mul, hp.dvd_mul, hp.dvd_mul] at h
  rcases h with (((h | h) | h) | h) | h
  · simp [heq (by norm_num) h]
  · simp [heq (by norm_num) h]
  · simp [heq (by norm_num) h]
  · simp [heq (by norm_num) h]
  · simp [heq (by norm_num) h]

theorem power_step_one :
    power 32 (columns step) (2 ^ 32 - 1) 1 = 1 ∧
      ∀ p ∈ [3, 5, 17, 257, 65537], power 32 (columns step) ((2 ^ 32 - 1) / p) 1 ≠ 1 := by
  decide +kernel

theorem isPeriodicPt_one_iff {n : ℕ} (hn : n < 2 ^ 32) :
    IsPeriodicPt step n 1 ↔ power 32 (columns step) n 1 = 1 := by
  have h := linear_step.power_columns hn 1
  rw [UInt32.toNat_one] at h
  rw [IsPeriodicPt, IsFixedPt, h, ← UInt32.toNat_inj, UInt32.toNat_one]

theorem minimalPeriod_step_one : minimalPeriod step 1 = 2 ^ 32 - 1 := by
  apply minimalPeriod_eq_of_prime
  · rw [isPeriodicPt_one_iff (by norm_num)]
    exact power_step_one.1
  · intro p hp hdvd
    rw [isPeriodicPt_one_iff ((Nat.div_le_self _ _).trans_lt (by norm_num))]
    exact power_step_one.2 p (eq_of_prime_dvd hp hdvd)

theorem iterate_step_zero (n : ℕ) : step^[n] 0 = 0 := iterate_fixed rfl n

section
variable {x : UInt32} (hx : x ≠ 0) (h : minimalPeriod step x = 2 ^ 32 - 1)
include hx h

theorem iterate_step_ne_zero (n : ℕ) : step^[n] x ≠ 0 := by
  intro hzero
  -- some periods later the state would still be zero, and it is `x`
  have hback : step^[n * (2 ^ 32 - 1)] x = x := by
    rw [← h]
    exact (isPeriodicPt_minimalPeriod step x).const_mul n
  have hsplit : n * (2 ^ 32 - 1) = n * (2 ^ 32 - 2) + n := by omega
  rw [hsplit, iterate_add_apply, hzero, iterate_step_zero] at hback
  exact hx hback.symm

/-- Every word but zero comes up in a period, for there are as many of them as different words come
up. -/
theorem existsUnique_iterate_step {y : UInt32} (hy : y ≠ 0) :
    ∃! n, n < 2 ^ 32 - 1 ∧ step^[n] x = y := by
  have hinj : Set.InjOn (fun n => (step^[n] x).toNat) (Finset.range (2 ^ 32 - 1)) := by
    intro a ha b hb hab
    rw [Finset.coe_range, ← h] at ha hb
    exact iterate_injOn_Iio_minimalPeriod ha hb (UInt32.toNat_inj.1 hab)
  have hword {z : UInt32} (hz : z ≠ 0) : z.toNat ∈ Finset.Ico 1 (2 ^ 32) := by
    have hpos : z.toNat ≠ 0 := fun hzero => hz (UInt32.toNat_inj.1 hzero)
    exact Finset.mem_Ico.2 ⟨Nat.one_le_iff_ne_zero.2 hpos, z.toNat_lt⟩
  have hsub : (Finset.range (2 ^ 32 - 1)).image (fun n => (step^[n] x).toNat) ⊆
      Finset.Ico 1 (2 ^ 32) := by
    intro z hz
    obtain ⟨n, -, rfl⟩ := Finset.mem_image.1 hz
    exact hword (iterate_step_ne_zero hx h n)
  have hcard : (Finset.Ico 1 (2 ^ 32)).card ≤
      ((Finset.range (2 ^ 32 - 1)).image fun n => (step^[n] x).toNat).card := by
    rw [Finset.card_image_of_injOn hinj, Finset.card_range, Nat.card_Ico]
  have hmem := hword hy
  rw [← Finset.eq_of_subset_of_card_le hsub hcard] at hmem
  obtain ⟨n, hn, hny⟩ := Finset.mem_image.1 hmem
  refine ⟨n, ⟨Finset.mem_range.1 hn, UInt32.toNat_inj.1 hny⟩, ?_⟩
  rintro k ⟨hk, rfl⟩
  exact hinj (Finset.mem_coe.2 (Finset.mem_range.2 hk)) hn hny.symm

end

theorem minimalPeriod_step {x : UInt32} (hx : x ≠ 0) : minimalPeriod step x = 2 ^ 32 - 1 := by
  obtain ⟨n, ⟨-, rfl⟩, -⟩ := existsUnique_iterate_step (by decide) minimalPeriod_step_one hx
  have hone : (1 : UInt32) ∈ periodicPts step := by
    rw [← minimalPeriod_pos_iff_mem_periodicPts, minimalPeriod_step_one]
    norm_num
  rw [minimalPeriod_apply_iterate hone, minimalPeriod_step_one]

theorem iterate_step_period (x : UInt32) : step^[2 ^ 32 - 1] x = x := by
  by_cases hx : x = 0
  · rw [hx, iterate_step_zero]
  · rw [← minimalPeriod_step hx]
    exact isPeriodicPt_minimalPeriod step x

theorem bijective_step : Bijective step := by
  have hleft : LeftInverse step^[2 ^ 32 - 2] step := by
    intro x
    rw [← iterate_succ_apply step]
    exact iterate_step_period x
  have hright : RightInverse step^[2 ^ 32 - 2] step := by
    intro x
    rw [← iterate_succ_apply' step]
    exact iterate_step_period x
  exact ⟨hleft.injective, hright.surjective⟩

theorem step_eq_self_iff (x : UInt32) : step x = x ↔ x = 0 := by
  constructor
  · intro hfixed
    by_contra hx
    have hdvd : minimalPeriod step x ∣ 1 := IsPeriodicPt.minimalPeriod_dvd hfixed
    rw [minimalPeriod_step hx] at hdvd
    exact absurd hdvd (by decide)
  · rintro rfl
    rfl

/-- From a state that is not zero, the least period of the states is `2 ^ 32 - 1`, and in any that
many draws in a row each word but zero is the state once. Zero is the one state that stays. -/
theorem periodic_stateAfter (g : Generator) (hg : g.state ≠ 0) :
    (∀ p, Periodic g.stateAfter p ↔ 2 ^ 32 - 1 ∣ p) ∧
    (∀ m, ∀ y ≠ 0, ∃! n, n < 2 ^ 32 - 1 ∧ g.stateAfter (m + n) = y) ∧
    (∀ n, g.stateAfter n ≠ 0) ∧
    Bijective step ∧ ∀ x, step x = x ↔ x = 0 := by
  have hperiod := minimalPeriod_step hg
  refine ⟨?_, ?_, ?_, bijective_step, step_eq_self_iff⟩
  · intro p
    rw [← hperiod]
    constructor
    · intro h
      have hp := h 0
      rw [Nat.zero_add, stateAfter_eq] at hp
      exact IsPeriodicPt.minimalPeriod_dvd hp
    · intro h n
      rw [stateAfter_eq, stateAfter_eq, iterate_add_apply,
        (isPeriodicPt_iff_minimalPeriod_dvd.2 h : step^[p] g.state = g.state)]
  · intro m y hy
    have hm := iterate_step_ne_zero hg hperiod m
    have hsplit (n : ℕ) : g.stateAfter (m + n) = step^[n] (step^[m] g.state) := by
      rw [stateAfter_eq, Nat.add_comm, iterate_add_apply]
    simp only [hsplit]
    exact existsUnique_iterate_step hm (minimalPeriod_step hm) hy
  · intro n
    rw [stateAfter_eq]
    exact iterate_step_ne_zero hg hperiod n

theorem periodic_stateAfter_default_seed :
    let g : Generator := ⟨123456789⟩
    g.state ≠ 0 ∧ (∀ p, Periodic g.stateAfter p ↔ 2 ^ 32 - 1 ∣ p) ∧
      ∀ m, ∀ y ≠ 0, ∃! n, n < 2 ^ 32 - 1 ∧ g.stateAfter (m + n) = y := by
  intro g
  have hg : g.state ≠ 0 := by decide
  have h := periodic_stateAfter g hg
  exact ⟨hg, h.1, h.2.1⟩

end TileWorld.Generator
