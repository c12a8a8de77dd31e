import TileWorld.Proofs.Binary.Near
import TileWorld.Proofs.Json.Literal

/-! How close the float that is read comes to the number that is written. Leaving out the digits
beyond 64 bits counts no more than one rounding, and there are at most five others, as long as the
number is neither too large for a float nor so small that the floats around it lose digits. -/

namespace TileWorld.Json
open Binary

/-- A number that is far enough from the subnormal ones stays so through a few roundings. -/
theorem leastNormal_le {q : ℚ} {k : ℕ} (hk : k ≤ 4) (h : 10 ^ (-307 : ℤ) / 2 * slack ^ k ≤ q) :
    leastNormal ≤ q := by
  have hpow : slack ^ 4 ≤ slack ^ k := pow_le_pow_of_le_one slack_pos.le slack_le_one hk
  have hslack : (9 / 10 : ℚ) ≤ slack ^ 4 := by norm_num [slack]
  have hleast : leastNormal ≤ 10 ^ (-307 : ℤ) / 2 * (9 / 10) := by
    have hnat : 10 ^ 307 * 20 ≤ 9 * 2 ^ 1022 := by decide +kernel
    have hcast : (10 : ℚ) ^ 307 * 20 ≤ 9 * 2 ^ 1022 := by exact_mod_cast hnat
    have htwo : (0 : ℚ) < 2 ^ 1022 := pow_pos (by norm_num) _
    have hten : (0 : ℚ) < 10 ^ 307 := pow_pos (by norm_num) _
    rw [leastNormal, zpow_neg, zpow_neg, zpow_ofNat, zpow_ofNat]
    generalize (2 : ℚ) ^ 1022 = b at *
    generalize (10 : ℚ) ^ 307 = a at *
    rw [inv_eq_one_div, div_le_iff₀ htwo]
    calc (1 : ℚ) ≤ 9 * b / (a * 20) := (one_le_div (by positivity)).2 hcast
      _ = a⁻¹ / 2 * (9 / 10) * b := by
          field_simp
          ring
  calc leastNormal ≤ 10 ^ (-307 : ℤ) / 2 * (9 / 10) := hleast
    _ ≤ 10 ^ (-307 : ℤ) / 2 * slack ^ k :=
        mul_le_mul_of_nonneg_left (hslack.trans hpow) (by positivity)
    _ ≤ q := h

theorem near_nearest_of_one_le {a : ℚ} (h : 1 ≤ a) : Near 1 (nearest a) a :=
  near_nearest (leastNormal_le_half.trans (by linarith))

theorem near_power (k : ℕ) : Near 1 (nearest (10 ^ k)) (10 ^ k) :=
  near_nearest_of_one_le (one_le_pow₀ (by norm_num))

/-- A division by a power of ten rounds the power and the quotient. -/
theorem exists_near_div {x : Float} {a b : ℚ} {m k : ℕ} (hx : value? x = some a)
    (hnear : Near m a b) (hm : m ≤ 3) (hb : 0 < b) (ha : a ≤ 2 ^ 64) (hk : k ≤ 308)
    (hlow : 10 ^ (-307 : ℤ) / 2 ≤ b / 10 ^ k) :
    ∃ q, value? (x / powerOfTen k) = some q ∧ Near (m + 2) q (b / 10 ^ k) ∧ q ≤ 2 ^ 64 := by
  have hpower := near_power k
  have hpos : (0 : ℚ) < 10 ^ k := by positivity
  have hone : 1 ≤ nearest (10 ^ k) := by
    have hmono := nearest_mono (one_le_pow₀ (by norm_num : (1 : ℚ) ≤ 10) (n := k))
    rwa [← pow_zero 2, nearest_two_pow, pow_zero] at hmono
  have hquotient := hnear.div hpower hb hpos
  have hnormal : leastNormal ≤ a / nearest (10 ^ k) := by
    refine leastNormal_le (k := m + 1) (by omega) (le_trans ?_ hquotient.ge)
    exact mul_le_mul_of_nonneg_right hlow (pow_nonneg slack_pos.le _)
  have ha0 : 0 ≤ a := (hnear.pos hb).le
  have hle : a / nearest (10 ^ k) ≤ 2 ^ 64 := (div_le_self ha0 hone).trans ha
  have hfinite := (nearest?_of_abs_le (k := 64) (by norm_num)
    ((abs_of_nonneg (div_nonneg ha0 (by positivity))).trans_le hle)).1
  refine ⟨nearest (a / nearest (10 ^ k)), ?_, ?_, ?_⟩
  · rw [value?_div hx (value?_powerOfTen hk) (by positivity), hfinite]
  · have hrounded := hquotient.nearest hnormal
    rwa [add_comm 1] at hrounded
  · exact (nearest_mono hle).trans_eq (nearest_two_pow 64)

theorem exponent_le {s k : ℕ} (hs : s < 2 ^ 64)
    (hlow : 10 ^ (-307 : ℤ) / 2 ≤ (s : ℚ) / 10 ^ k) : k ≤ 616 := by
  by_contra hlt
  have hpower : (10 : ℚ) ^ 328 ≤ 10 ^ k := pow_le_pow_right₀ (by norm_num) (by omega)
  have hsmall : (s : ℚ) ≤ 10 ^ 20 := by exact_mod_cast hs.le.trans (by norm_num)
  have hproduct : (10 : ℚ) ^ (-307 : ℤ) * 10 ^ 328 = 10 ^ 21 := by
    rw [← zpow_natCast, ← zpow_natCast, ← zpow_add₀ (by norm_num)]
    rfl
  rw [le_div_iff₀ (by positivity)] at hlow
  have hmore : (10 : ℚ) ^ 21 / 2 ≤ s :=
    calc (10 : ℚ) ^ 21 / 2 = 10 ^ (-307 : ℤ) / 2 * 10 ^ 328 := by rw [← hproduct, mul_div_right_comm]
      _ ≤ 10 ^ (-307 : ℤ) / 2 * 10 ^ k := mul_le_mul_of_nonneg_left hpower (by positivity)
      _ ≤ s := hlow
  norm_num at hmore hsmall
  linarith

section
variable {s : ℕ} (hs : 0 < s) (hs' : s < 2 ^ 64)
include hs

theorem near_coefficient : Near 1 (nearest s) s :=
  near_nearest_of_one_le (by exact_mod_cast hs)

include hs'

theorem near_scale?_of_nonneg {e : ℕ} (h : (s : ℚ) * 10 ^ e ≤ (2 ^ 53 - 7 / 2) * 2 ^ (971 : ℤ)) :
    ∃ x q, scale? s.toUInt64.toFloat e = some x ∧ value? x = some q ∧ Near 3 q (s * 10 ^ e) := by
  have hone : (1 : ℚ) ≤ s := by exact_mod_cast hs
  have hpower : (1 : ℚ) ≤ 10 ^ e := one_le_pow₀ (by norm_num)
  obtain ⟨-, hvalue⟩ := value?_mul_powerOfTen hs hs' h
  have hscale := scale?_of_le hs hs' (Int.natCast_nonneg e) (by rwa [zpow_natCast])
  rw [scaled, if_pos (Int.natCast_nonneg e), Int.toNat_natCast] at hscale
  have hproduct := (near_coefficient hs).mul (near_power e) (by positivity) (by positivity)
  have hnormal : leastNormal ≤ nearest s * nearest (10 ^ e) :=
    calc leastNormal ≤ 1 / 2 := leastNormal_le_half
      _ ≤ 1 * slack ^ (1 + 1) := by norm_num [slack]
      _ ≤ s * 10 ^ e * slack ^ (1 + 1) := mul_le_mul_of_nonneg_right
          (one_le_mul_of_one_le_of_one_le hone hpower) (pow_nonneg slack_pos.le _)
      _ ≤ nearest s * nearest (10 ^ e) := hproduct.ge
  exact ⟨_, _, hscale, hvalue, hproduct.nearest hnormal⟩

theorem near_scale?_of_neg {k : ℕ} (hk : 0 < k)
    (hlow : 10 ^ (-307 : ℤ) / 2 ≤ (s : ℚ) / 10 ^ k) :
    ∃ x q, scale? s.toUInt64.toFloat (-k) = some x ∧ value? x = some q ∧ Near 5 q (s / 10 ^ k) := by
  have hpos : (0 : ℚ) < s := by exact_mod_cast hs
  have hle : nearest s ≤ 2 ^ 64 := by
    have hmono := nearest_mono (show (s : ℚ) ≤ 2 ^ 64 by exact_mod_cast hs'.le)
    exact hmono.trans_eq (nearest_two_pow 64)
  have hcoefficient := value?_coefficient hs'
  have hnear := near_coefficient hs
  have hfew := exponent_le hs' hlow
  by_cases hshort : k ≤ 308
  · obtain ⟨q, hq, hnear, -⟩ :=
      exists_near_div hcoefficient hnear (by norm_num) hpos hle hshort hlow
    have hquotient : (0 : ℚ) < s / 10 ^ k := by positivity
    refine ⟨_, q, ?_, hq, hnear.mono (hnear.pos hquotient).le hquotient.le (by norm_num)⟩
    rw [scale?, if_neg (by omega), if_pos (by omega), neg_neg, Int.toNat_natCast]
  · obtain ⟨j, rfl⟩ := Nat.exists_eq_add_of_le (not_le.1 hshort).le
    have hsplit : (s : ℚ) / 10 ^ (308 + j) = s / 10 ^ 308 / 10 ^ j := by rw [pow_add, div_div]
    have hquotient : (0 : ℚ) < s / 10 ^ 308 := by positivity
    rw [hsplit] at hlow ⊢
    have hfirst : 10 ^ (-307 : ℤ) / 2 ≤ (s : ℚ) / 10 ^ 308 :=
      hlow.trans (div_le_self hquotient.le (one_le_pow₀ (by norm_num)))
    obtain ⟨p, hp, hnear, hle⟩ :=
      exists_near_div hcoefficient hnear (by norm_num) hpos hle le_rfl hfirst
    obtain ⟨q, hq, hnear, -⟩ :=
      exists_near_div hp hnear le_rfl hquotient hle (by omega) hlow
    refine ⟨_, q, ?_, hq, hnear⟩
    have hrest : (((308 + j : ℕ) : ℤ) - 308).toNat = j := by omega
    rw [scale?, if_neg (by omega), if_neg (by omega), if_pos (by omega), neg_neg, hrest]

/-- Scaling counts five roundings at most. -/
theorem exists_near_scale? {e : ℤ} (hlow : 10 ^ (-307 : ℤ) / 2 ≤ (s : ℚ) * 10 ^ e)
    (hhigh : (s : ℚ) * 10 ^ e ≤ (2 ^ 53 - 7 / 2) * 2 ^ (971 : ℤ)) :
    ∃ x q, scale? s.toUInt64.toFloat e = some x ∧ value? x = some q ∧ Near 5 q (s * 10 ^ e) := by
  rcases lt_or_ge e 0 with he | he
  · obtain ⟨k, rfl⟩ : ∃ k : ℕ, e = -(k : ℤ) := ⟨(-e).toNat, by omega⟩
    have hdiv : (s : ℚ) * 10 ^ (-(k : ℤ)) = s / 10 ^ k := by
      rw [zpow_neg, zpow_natCast, div_eq_mul_inv]
    rw [hdiv] at hlow ⊢
    exact near_scale?_of_neg hs hs' (by omega) hlow
  · lift e to ℕ using he
    rw [zpow_natCast] at hhigh ⊢
    obtain ⟨x, q, hx, hq, hnear⟩ := near_scale?_of_nonneg hs hs' hhigh
    have hpos : (0 : ℚ) < s * 10 ^ e := by
      have hcast : (0 : ℚ) < s := by exact_mod_cast hs
      positivity
    exact ⟨x, q, hx, hq, hnear.mono (hnear.pos hpos).le hpos.le (by norm_num)⟩

end

theorem ofDigitChars_lt {cs : List Char} (h : ∀ c ∈ cs, c.isDigit = true) (s : ℕ) :
    Nat.ofDigitChars 10 cs s < (s + 1) * 10 ^ cs.length := by
  induction cs generalizing s with
  | nil => simp
  | cons c cs ih =>
    obtain ⟨hc, hcs⟩ := List.forall_mem_cons.1 h
    have hdigit : 10 * s + (c.toNat - '0'.toNat) + 1 ≤ (s + 1) * 10 := by
      have hnine := (Char.isDigit_iff_toNat.1 hc).2
      change c.toNat ≤ 57 at hnine
      change 10 * s + (c.toNat - 48) + 1 ≤ (s + 1) * 10
      omega
    rw [Nat.ofDigitChars_cons, List.length_cons, Nat.pow_succ', ← Nat.mul_assoc]
    exact (ih hcs _).trans_le (Nat.mul_le_mul_right _ hdigit)

/-- Digits are left only where the significand fills 64 bits but for one digit. -/
theorem Absorbed.large {s : ℕ} {cs : List Char} {r : ℕ × List Char} (h : Absorbed s cs r)
    (hcs : ∀ c ∈ cs, c.isDigit = true) (hleft : r.2 ≠ []) : 2 ^ 60 ≤ r.1 := by
  obtain ⟨d, ds, hds⟩ := List.exists_cons_of_ne_nil hleft
  obtain ⟨taken, htaken, -⟩ := h.exists_taken
  have hd : ∀ c ∈ [d], c.isDigit = true := by
    intro c hc
    rw [List.mem_singleton.1 hc]
    exact hcs d (by rw [htaken, hds]; exact List.mem_append_right _ List.mem_cons_self)
  have hlt := (h.full d ds hds).trans_lt (ofDigitChars_lt hd r.1)
  change 2 ^ 64 < (r.1 + 1) * 10 at hlt
  omega

/-- Leaving out less than the last place of a large number takes off a small part of it. -/
theorem mul_le_of_lt {a p n m : ℕ} (ha : 2 ^ 60 ≤ a) (hn : n < (a + 1) * p) (hm : a * p ≤ m) :
    n * 2 ^ 60 ≤ m * (2 ^ 60 + 1) :=
  calc n * 2 ^ 60 ≤ (a + 1) * p * 2 ^ 60 := Nat.mul_le_mul_right _ hn.le
    _ = a * p * 2 ^ 60 + 2 ^ 60 * p := by ring
    _ ≤ a * p * 2 ^ 60 + a * p := Nat.add_le_add_left (Nat.mul_le_mul_right p ha) _
    _ = a * p * (2 ^ 60 + 1) := by ring
    _ ≤ m * (2 ^ 60 + 1) := Nat.mul_le_mul_right _ hm

namespace Numeral
variable {n : Numeral}

/-- What is not taken is less than one part in `2 ^ 60`. -/
theorem significand_mul_le (hn : n.Proper) {r f : ℕ × List Char} (hwhole : Absorbed 0 n.whole r)
    (hfraction : Absorbed r.1 n.fraction f) :
    n.significand * 2 ^ 60 ≤ f.1 * 10 ^ (r.2.length + f.2.length) * (2 ^ 60 + 1) := by
  obtain ⟨first, hfirst, hr⟩ := hwhole.exists_taken
  obtain ⟨second, hsecond, hf⟩ := hfraction.exists_taken
  have hall : n.significand = Nat.ofDigitChars 10 (r.2 ++ n.fraction) r.1 := by
    rw [significand, hfirst, List.append_assoc, Nat.ofDigitChars_append, ← hr]
  have hrest : ∀ c ∈ r.2, c.isDigit = true := fun c hc =>
    hn.whole_digits c (by rw [hfirst]; exact List.mem_append_right _ hc)
  by_cases hleft : r.2 = []
  · by_cases hmore : f.2 = []
    · rw [hleft, List.nil_append, hsecond, hmore, List.append_nil, ← hf] at hall
      rw [hall, hleft, hmore, List.length_nil, Nat.add_zero, Nat.pow_zero, Nat.mul_one]
      exact Nat.mul_le_mul_left _ (by norm_num)
    · have hlast : ∀ c ∈ f.2, c.isDigit = true := fun c hc =>
        hn.fraction_digits c (by rw [hsecond]; exact List.mem_append_right _ hc)
      have hlt := ofDigitChars_lt hlast f.1
      rw [hleft, List.nil_append, hsecond, Nat.ofDigitChars_append, ← hf] at hall
      rw [← hall] at hlt
      refine mul_le_of_lt (hfraction.large hn.fraction_digits hmore) hlt (le_of_eq ?_)
      rw [hleft, List.length_nil, Nat.zero_add]
  · have hdigits : ∀ c ∈ r.2 ++ n.fraction, c.isDigit = true := fun c hc =>
      (List.mem_append.1 hc).elim (hrest c) (hn.fraction_digits c)
    have hlt := ofDigitChars_lt hdigits r.1
    rw [← hall] at hlt
    refine mul_le_of_lt (hwhole.large hn.whole_digits hleft) hlt ?_
    have hlength : (r.2 ++ n.fraction).length = second.length + (r.2.length + f.2.length) := by
      rw [hsecond, List.length_append, List.length_append]
      omega
    rw [hlength, Nat.pow_add, ← Nat.mul_assoc, hf]
    exact Nat.mul_le_mul_right _ (mul_pow_length_le second r.1)

theorem near_taken (hn : n.Proper) :
    Near 1 (n.taken.1 * 10 ^ n.taken.2) (n.significand * 10 ^ n.lastExponent) := by
  constructor
  · exact (mul_le_of_le_one_right (by positivity) (pow_le_one₀ slack_pos.le slack_le_one)).trans
      n.taken_le
  · obtain ⟨k, hk, hvalue⟩ := n.taken_eq
    have hle : (n.significand : ℚ) * 2 ^ 60 ≤ (n.taken.1 * 10 ^ k : ℕ) * (2 ^ 60 + 1) := by
      rw [hk]
      exact_mod_cast significand_mul_le hn n.absorbed_whole n.absorbed_fraction
    rw [hvalue, mul_right_comm]
    apply mul_le_mul_of_nonneg_right _ (by positivity)
    rw [slack]
    linarith

end Numeral

/-- A number that is neither too large nor too small gives a float near it. -/
theorem Literal.near_real? (l : Literal) (hlow : 10 ^ (-307 : ℤ) ≤ l.size)
    (hhigh : l.size ≤ (2 ^ 53 - 7 / 2) * 2 ^ (971 : ℤ)) :
    ∃ x q, l.real? = some x ∧ value? x = some (if l.numeral.negative then -q else q) ∧
      Near 6 q l.size := by
  have hpos : 0 < l.size := lt_of_lt_of_le (zpow_pos (by norm_num) _) hlow
  rcases l.numeral.number?_cases with ⟨hwhole, hsize, hnumber⟩ | ⟨hnumber, -⟩
  · have hvalue := value?_coefficient hsize
    rw [l.size_of_isWhole hwhole] at hpos ⊢
    have hnear := near_coefficient (by exact_mod_cast hpos)
    refine ⟨_, _, ?_, value?_withSign hvalue _,
      hnear.mono (hnear.pos hpos).le hpos.le (by norm_num)⟩
    rw [real?, hnumber, Numeral.withSign, Option.map_some]
    cases l.numeral.negative <;> rfl
  · have htaken : Near 1 (l.numeral.taken.1 * 10 ^ l.numeral.taken.2) l.size :=
      Numeral.near_taken l.proper
    have hs : 0 < l.numeral.taken.1 := by
      refine Nat.pos_of_ne_zero fun hzero => ?_
      have hproduct := htaken.pos hpos
      rw [hzero, Nat.cast_zero, zero_mul] at hproduct
      exact lt_irrefl 0 hproduct
    have hlower : 10 ^ (-307 : ℤ) / 2 ≤ (l.numeral.taken.1 : ℚ) * 10 ^ l.numeral.taken.2 :=
      calc (10 : ℚ) ^ (-307 : ℤ) / 2 = 10 ^ (-307 : ℤ) * (1 / 2) := by ring
        _ ≤ l.size * slack ^ 1 :=
            mul_le_mul hlow (by norm_num [slack]) (by norm_num) hpos.le
        _ ≤ l.numeral.taken.1 * 10 ^ l.numeral.taken.2 := htaken.ge
    obtain ⟨x, q, hx, hq, hnear⟩ := exists_near_scale? hs l.numeral.taken_lt hlower
      (l.numeral.taken_le.trans hhigh)
    refine ⟨_, q, ?_, value?_withSign hq _, hnear.trans htaken⟩
    rw [real?, hnumber, l.numeral.real?_eq_taken, hx]
    rfl

end TileWorld.Json
