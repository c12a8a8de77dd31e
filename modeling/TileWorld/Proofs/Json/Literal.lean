import TileWorld.Proofs.Json.Scalar

/-! Numbers in all the forms that JSON has for them, and what is read of them as a count or as a
float. Of digits beyond 64 bits only their number counts, so that no more than the number itself is
ever scaled. -/

namespace TileWorld.Json
open Binary (value? nearest nearest?)
open Decimal (Digits signed)

/-- What is taken of some digits into a significand, and what is left of them. -/
structure Absorbed (s : ℕ) (cs : List Char) (r : ℕ × List Char) : Prop where
  exists_taken : ∃ taken, cs = taken ++ r.2 ∧ r.1 = Nat.ofDigitChars 10 taken s
  lt : r.1 < UInt64.size
  full : ∀ d ds, r.2 = d :: ds → UInt64.size ≤ Nat.ofDigitChars 10 [d] r.1

theorem absorbed_absorb {s : ℕ} (hs : s < UInt64.size) (cs : List Char) :
    Absorbed s cs (absorb s cs) := by
  induction cs generalizing s with
  | nil => exact ⟨⟨[], rfl, rfl⟩, hs, nofun⟩
  | cons c cs ih =>
    rw [absorb]
    split
    · next hlt =>
      obtain ⟨⟨taken, htaken, hsum⟩, hmore, hfull⟩ := ih hlt
      refine ⟨⟨c :: taken, congrArg (c :: ·) htaken, ?_⟩, hmore, hfull⟩
      rw [hsum, ← Nat.ofDigitChars_append, List.singleton_append]
    · next hge =>
      refine ⟨⟨[], rfl, rfl⟩, hs, ?_⟩
      rintro d ds h
      rw [← (List.cons.inj h).1]
      exact not_lt.1 hge

theorem mul_pow_length_le (cs : List Char) (s : ℕ) :
    s * 10 ^ cs.length ≤ Nat.ofDigitChars 10 cs s := by
  rw [Nat.ofDigitChars_eq_ofDigitChars_zero, Nat.mul_comm]
  exact Nat.le_add_right _ _

section
variable {s : ℕ} {cs : List Char} {r : ℕ × List Char} (h : Absorbed s cs r)
include h

theorem Absorbed.mul_le : r.1 * 10 ^ r.2.length ≤ Nat.ofDigitChars 10 cs s := by
  obtain ⟨taken, htaken, hsum⟩ := h.exists_taken
  rw [htaken, Nat.ofDigitChars_append, ← hsum]
  exact mul_pow_length_le r.2 r.1

/-- Where digits are left, the number takes more than 64 bits. -/
theorem Absorbed.size_mul_le {d : Char} {ds : List Char} (hleft : r.2 = d :: ds) :
    UInt64.size * 10 ^ ds.length ≤ Nat.ofDigitChars 10 cs s := by
  obtain ⟨taken, htaken, hsum⟩ := h.exists_taken
  have hcons : Nat.ofDigitChars 10 cs s =
      Nat.ofDigitChars 10 ds (Nat.ofDigitChars 10 [d] r.1) := by
    rw [htaken, hleft, Nat.ofDigitChars_append, ← hsum, ← List.singleton_append,
      Nat.ofDigitChars_append]
  rw [hcons]
  exact (Nat.mul_le_mul_right _ (h.full d ds hleft)).trans (mul_pow_length_le ds _)

end

namespace Numeral
variable (n : Numeral)

theorem absorbed_whole : Absorbed 0 n.whole (absorb 0 n.whole) := absorbed_absorb (by decide) _

theorem absorbed_fraction :
    Absorbed (absorb 0 n.whole).1 n.fraction (absorb (absorb 0 n.whole).1 n.fraction) :=
  absorbed_absorb n.absorbed_whole.lt _

/-- The number that the digits before the point form. -/
def wholePart : ℕ := Nat.ofDigitChars 10 n.whole 0

/-- A numeral gives a whole number where it is one and fits, and else a float. -/
theorem number?_cases :
    (n.isWhole = true ∧ n.wholePart < UInt64.size ∧
      n.number? = some (if n.negative then .negative n.wholePart else .natural n.wholePart)) ∨
    (n.number? = n.real?.map .real ∧
      (n.isWhole = true → n.negative = false → UInt64.size ≤ n.wholePart)) := by
  have habsorbed := n.absorbed_whole
  rw [number?]
  generalize absorb 0 n.whole = r at habsorbed
  obtain ⟨s, _ | ⟨d, ds⟩⟩ := r
  · obtain ⟨taken, htaken, hsum⟩ := habsorbed.exists_taken
    rw [List.append_nil] at htaken
    obtain rfl : s = n.wholePart := by
      rw [wholePart, htaken]
      exact hsum
    dsimp only
    split
    · next hnatural =>
      simp only [Bool.and_eq_true] at hnatural
      exact Or.inl ⟨hnatural.1.1, habsorbed.lt, rfl⟩
    · next hreal =>
      refine Or.inr ⟨rfl, fun hwhole hpositive => ?_⟩
      rw [hwhole, hpositive] at hreal
      exact absurd rfl hreal
  · have hmore := habsorbed.size_mul_le rfl
    have hcondition : (n.isWhole && (d :: ds).isEmpty &&
        (!n.negative || 0 < s && s ≤ Nat.pow 2 63)) = false := by
      rw [List.isEmpty_cons, Bool.and_false, Bool.false_and]
    exact Or.inr ⟨if_neg (by rw [hcondition]; exact Bool.false_ne_true), fun _ _ =>
      (Nat.le_mul_of_pos_right _ (by positivity)).trans hmore⟩

/-- What is taken is no more than what is written. A digit behind the point that is taken although
one before it is left moves in front of it, but is the smaller one of the two. -/
theorem absorbed_mul_le {r f : ℕ × List Char} (hwhole : Absorbed 0 n.whole r)
    (hfraction : Absorbed r.1 n.fraction f) :
    f.1 * 10 ^ (r.2.length + f.2.length) ≤ n.significand := by
  have hsignificand : n.wholePart * 10 ^ n.fraction.length ≤ n.significand := by
    rw [significand, Nat.ofDigitChars_append]
    exact mul_pow_length_le n.fraction _
  obtain ⟨taken, htaken, hsum⟩ := hfraction.exists_taken
  cases hleft : r.2 with
  | nil =>
    obtain ⟨all, hall, hr⟩ := hwhole.exists_taken
    rw [hleft, List.append_nil] at hall
    rw [significand, Nat.ofDigitChars_append, hall, ← hr, List.length_nil, Nat.zero_add]
    exact hfraction.mul_le
  | cons d ds =>
    cases taken with
    | nil =>
      have hnone : f.1 = r.1 ∧ f.2 = n.fraction := ⟨hsum, htaken.symm⟩
      have hle := hwhole.mul_le
      rw [hleft] at hle
      rw [hnone.1, hnone.2, Nat.pow_add, ← Nat.mul_assoc]
      exact (Nat.mul_le_mul_right _ hle).trans hsignificand
    | cons c cs =>
      have hlength : 1 + f.2.length ≤ n.fraction.length := by
        rw [htaken, List.length_append, List.length_cons]
        omega
      calc f.1 * 10 ^ ((d :: ds).length + f.2.length)
          ≤ UInt64.size * 10 ^ (ds.length + n.fraction.length) := by
            apply Nat.mul_le_mul hfraction.lt.le
            apply Nat.pow_le_pow_right (by decide)
            rw [List.length_cons]
            omega
        _ = UInt64.size * 10 ^ ds.length * 10 ^ n.fraction.length := by
            rw [Nat.pow_add, Nat.mul_assoc]
        _ ≤ n.significand :=
            (Nat.mul_le_mul_right _ (hwhole.size_mul_le hleft)).trans hsignificand

/-- The significand that is scaled, and the power of ten. -/
def taken : ℕ × ℤ :=
  let r := absorb 0 n.whole
  let f := absorb r.1 n.fraction
  (f.1, r.2.length - (n.fraction.length - f.2.length) + n.exponent.getD 0)

theorem real?_eq_taken :
    n.real? = (scale? n.taken.1.toUInt64.toFloat n.taken.2).map (withSign n.negative) := rfl

theorem taken_lt : n.taken.1 < 2 ^ 64 := n.absorbed_fraction.lt

/-- What is scaled, in terms of the last place of the number. -/
theorem taken_eq : ∃ k : ℕ, k = (absorb 0 n.whole).2.length +
      (absorb (absorb 0 n.whole).1 n.fraction).2.length ∧
    (n.taken.1 : ℚ) * 10 ^ n.taken.2 = (n.taken.1 * 10 ^ k : ℕ) * 10 ^ n.lastExponent := by
  refine ⟨_, rfl, ?_⟩
  have hexponent : n.taken.2 = ((absorb 0 n.whole).2.length +
      (absorb (absorb 0 n.whole).1 n.fraction).2.length : ℕ) + n.lastExponent := by
    rw [taken, lastExponent]
    push_cast
    ring
  rw [hexponent, zpow_add₀ (by norm_num), zpow_natCast]
  push_cast
  ring

theorem taken_le : (n.taken.1 : ℚ) * 10 ^ n.taken.2 ≤ n.significand * 10 ^ n.lastExponent := by
  obtain ⟨k, rfl, hvalue⟩ := n.taken_eq
  rw [hvalue]
  apply mul_le_mul_of_nonneg_right _ (by positivity)
  exact_mod_cast n.absorbed_mul_le n.absorbed_whole n.absorbed_fraction

end Numeral

theorem pow_152_le : (2 : ℚ) ^ (152 : ℤ) ≤ (2 ^ 53 - 7 / 2) * 2 ^ (971 : ℤ) :=
  calc (2 : ℚ) ^ (152 : ℤ) ≤ 2 ^ (971 : ℤ) := zpow_le_zpow_right₀ (by norm_num) (by norm_num)
    _ ≤ (2 ^ 53 - 7 / 2) * 2 ^ (971 : ℤ) := le_mul_of_one_le_left (by positivity) (by norm_num)

theorem exists_scale? {s : ℕ} {e : ℤ} (hs : s < 2 ^ 64)
    (h : (s : ℚ) * 10 ^ e ≤ (2 ^ 53 - 7 / 2) * 2 ^ (971 : ℤ)) :
    ∃ x, scale? s.toUInt64.toFloat e = some x := by
  rcases lt_or_ge e 0 with he | he
  · rw [scale?, if_neg (not_le.2 he)]
    split
    · exact ⟨_, rfl⟩
    · split
      · exact ⟨_, rfl⟩
      · exact ⟨_, rfl⟩
  rcases Nat.eq_zero_or_pos s with rfl | hpos
  · have hzero : value? (0 : ℕ).toUInt64.toFloat = some 0 := by decide +kernel
    rw [scale?, if_pos he]
    split
    · next hle =>
      have hpower := value?_powerOfTen (k := e.toNat) (by omega)
      have hproduct := Binary.value?_mul hzero hpower
      rw [zero_mul, Binary.nearest?_of_value? hzero] at hproduct
      dsimp only
      rw [Binary.isInf_eq_false hproduct]
      exact ⟨_, rfl⟩
    · exact ⟨_, if_pos (by decide +kernel)⟩
  · exact ⟨_, scale?_of_le hpos hs he h⟩

theorem scaled_of_scale? {x y : Float} {e : ℤ} (hlow : -308 ≤ e) (hhigh : e ≤ 308)
    (h : scale? x e = some y) : scaled x e = y := by
  by_cases he : 0 ≤ e
  · rw [scale?, if_pos he, if_pos hhigh] at h
    rw [scaled, if_pos he]
    dsimp only at h
    split at h
    · cases h
    · exact Option.some.inj h
  · rw [scale?, if_neg he, if_pos hlow] at h
    rw [scaled, if_neg he, if_pos hlow]
    exact Option.some.inj h

/-- An exponent as it may be written. -/
structure ExponentSpelling where
  capital : Bool
  sign : Option Bool
  digits : List Char
  digits_ne_nil : digits ≠ []
  isDigit : ∀ c ∈ digits, c.isDigit = true

namespace ExponentSpelling

def value (e : ExponentSpelling) : Int :=
  if e.sign.getD false then -(Nat.ofDigitChars 10 e.digits 0 : Int)
  else Nat.ofDigitChars 10 e.digits 0

def chars (e : ExponentSpelling) : List Char :=
  (if e.capital then 'E' else 'e') :: (signChars e.sign ++ e.digits)

theorem readExponent?_chars (e : ExponentSpelling) {rest : List Char} (hrest : EndsNumber rest) :
    readExponent? (e.chars ++ rest) = .ok (some e.value, rest) := by
  have hread := readExponent_signChars e.isDigit e.digits_ne_nil hrest e.sign
  rw [← List.append_assoc] at hread
  have hmark : readExponent? (e.chars ++ rest) =
      (readExponent (signChars e.sign ++ e.digits ++ rest)).map fun r => (some r.1, r.2) := by
    rw [chars]
    cases e.capital <;> rfl
  rw [hmark, hread]
  rfl

end ExponentSpelling

/-- A number as it may be written. Without a point there are no fraction digits. -/
structure Literal where
  negative : Bool
  whole : List Char
  fraction : List Char
  exponent : Option ExponentSpelling
  proper : Numeral.Proper ⟨negative, whole, fraction, exponent.map ExponentSpelling.value⟩

namespace Literal
variable (l : Literal)

def numeral : Numeral := ⟨l.negative, l.whole, l.fraction, l.exponent.map ExponentSpelling.value⟩

def exponentChars : List Char := (l.exponent.map ExponentSpelling.chars).getD []

def chars : List Char :=
  signed l.negative (l.whole ++ (Numeral.fractionChars l.fraction ++ l.exponentChars))

/-- The number without its sign. -/
def size : ℚ := l.numeral.significand * 10 ^ l.numeral.lastExponent

def value : ℚ := if l.negative then -l.size else l.size

/-- What is behind the fraction belongs to no number without an exponent. -/
theorem head?_exponentChars {rest : List Char} (hrest : EndsNumber rest) :
    ∀ c ∈ (l.exponentChars ++ rest).head?, c.isDigit = false ∧ c ≠ '.' := by
  rw [exponentChars]
  cases l.exponent with
  | none => exact fun c hc => ⟨(hrest c hc).1, (hrest c hc).2.1⟩
  | some e =>
    intro c hc
    cases hc
    cases e.capital <;> decide

theorem readNumeral_unsigned {rest : List Char} (hrest : EndsNumber rest) :
    readNumeral l.negative
      (l.whole ++ (Numeral.fractionChars l.fraction ++ (l.exponentChars ++ rest))) =
      .ok (l.numeral, rest) := by
  have hexponent : readExponent? (l.exponentChars ++ rest) = .ok (l.numeral.exponent, rest) := by
    rw [exponentChars, numeral]
    cases l.exponent with
    | none => exact readExponent?_of_endsNumber hrest
    | some e => exact e.readExponent?_chars hrest
  exact readNumeral_digits l.proper (l.head?_exponentChars hrest) hexponent

/-- What is behind the sign starts with a digit, so the sign can be told from it. -/
theorem exists_digit_unsigned : ∃ d cs, d.isDigit = true ∧
    l.whole ++ (Numeral.fractionChars l.fraction ++ l.exponentChars) = d :: cs := by
  obtain ⟨d, ds, hwhole⟩ := List.exists_cons_of_ne_nil l.proper.whole_ne_nil
  dsimp only at hwhole
  refine ⟨d, _, l.proper.whole_digits d ?_, congrArg (· ++ _) hwhole⟩
  dsimp only
  rw [hwhole]
  exact List.mem_cons_self

theorem exists_cons_chars : ∃ c cs, l.chars = c :: cs ∧ (c = '-' ∨ c.isDigit = true) := by
  obtain ⟨d, cs, hd, hunsigned⟩ := l.exists_digit_unsigned
  rw [chars, hunsigned]
  cases l.negative with
  | true => exact ⟨'-', _, rfl, Or.inl rfl⟩
  | false => exact ⟨d, cs, rfl, Or.inr hd⟩

theorem signed_inj {negative negative' : Bool} {d d' : Char} {cs cs' : List Char}
    (hd : d.isDigit = true) (hd' : d'.isDigit = true)
    (h : signed negative (d :: cs) = signed negative' (d' :: cs')) :
    negative = negative' ∧ d :: cs = d' :: cs' := by
  have hsign : ¬ '-'.isDigit = true := by decide
  cases negative <;> cases negative'
  · exact ⟨rfl, h⟩
  · exact absurd ((List.cons.inj h).1 ▸ hd) hsign
  · exact absurd ((List.cons.inj h).1 ▸ hd') hsign
  · exact ⟨rfl, (List.cons.inj h).2⟩

theorem numeral_eq_of_chars {l l' : Literal} (h : l.chars = l'.chars) : l.numeral = l'.numeral := by
  have hread (l : Literal) : readNumeral l.negative
      (l.whole ++ (Numeral.fractionChars l.fraction ++ l.exponentChars)) = .ok (l.numeral, []) := by
    have hunsigned := l.readNumeral_unsigned (show EndsNumber [] from nofun)
    rwa [List.append_nil] at hunsigned
  have hleft := hread l
  have hright := hread l'
  obtain ⟨d, cs, hd, hunsigned⟩ := l.exists_digit_unsigned
  obtain ⟨d', cs', hd', hunsigned'⟩ := l'.exists_digit_unsigned
  rw [chars, chars, hunsigned, hunsigned'] at h
  obtain ⟨hnegative, hcs⟩ := signed_inj hd hd' h
  rw [hunsigned, hnegative, hcs, ← hunsigned', hright] at hleft
  injection hleft with hpair
  injection hpair with hnumeral
  exact hnumeral.symm

/-- A text spells no more than one number. -/
theorem value_eq_of_chars {l l' : Literal} (h : l.chars = l'.chars) : l.value = l'.value := by
  have hvalue (l : Literal) : l.value = if l.numeral.negative then
      -((l.numeral.significand : ℚ) * 10 ^ l.numeral.lastExponent)
      else l.numeral.significand * 10 ^ l.numeral.lastExponent := rfl
  rw [hvalue, hvalue, numeral_eq_of_chars h]

theorem readNumberAs_chars (expected : String) {blanks rest : List Char}
    (hblanks : ∀ b ∈ blanks, isBlank b = true) (hrest : EndsNumber rest) :
    readNumberAs expected (blanks ++ (l.chars ++ rest)) = match l.numeral.number? with
      | some n => .ok (n, rest)
      | none => .error (.malformed .numberOutOfRange) := by
  have hsigned := readNumberAs_signed hblanks expected l.proper
    (Numeral.fractionChars l.fraction ++ (l.exponentChars ++ rest))
  dsimp only at hsigned
  rw [chars, signed_append, List.append_assoc, List.append_assoc, hsigned, readNumber,
    l.readNumeral_unsigned hrest]
  rfl

/-- The count that a number is, if it is one. -/
def count? : Option UInt32 :=
  if l.negative = false ∧ l.fraction = [] ∧ l.exponent = none ∧
    l.numeral.wholePart < UInt32.size then some l.numeral.wholePart.toUInt32 else none

/-- A number in its digits alone. -/
def natural (n : ℕ) : Literal := ⟨false, Decimal.digits n, [], none, proper_digits false n⟩

theorem chars_natural (n : ℕ) : (natural n).chars = Decimal.digits n := List.append_nil _

theorem count?_natural (n : UInt32) : (natural n.toNat).count? = some n := by
  have hvalue : (natural n.toNat).numeral.wholePart = n.toNat := Nat.ofDigitChars_ten_toDigits
  rw [count?, hvalue, if_pos ⟨rfl, rfl, rfl, n.toNat_lt⟩]
  exact congrArg some UInt32.ofNat_toNat

theorem isWhole_iff : l.numeral.isWhole = true ↔ l.fraction = [] ∧ l.exponent = none := by
  rw [Numeral.isWhole, Bool.and_eq_true, List.isEmpty_iff, Option.isNone_iff_eq_none, numeral,
    Option.map_eq_none_iff]

def real? : Option Float := l.numeral.number?.map Number.toReal

/-- Why a number is not a count. -/
def countFault : Error :=
  match l.numeral.number? with
  | none => .malformed .numberOutOfRange
  | some (.real x) => .mismatched (.invalidType (.real x) "u32")
  | some n => .mismatched (.invalidValue n.found "u32")

section
variable {blanks rest : List Char} (hblanks : ∀ b ∈ blanks, isBlank b = true)
  (hrest : EndsNumber rest)
include hblanks hrest

theorem readCount_chars : readCount (blanks ++ (l.chars ++ rest)) = match l.count? with
    | some n => .ok (n, rest)
    | none => .error l.countFault := by
  rw [readCount, l.readNumberAs_chars "u32" hblanks hrest, countFault]
  have hnumeral : l.numeral.negative = l.negative := rfl
  rcases l.numeral.number?_cases with ⟨hwhole, hfits, hnumber⟩ | ⟨hnumber, hlarge⟩
  · obtain ⟨hfraction, hexponent⟩ := l.isWhole_iff.1 hwhole
    rw [hnumber, hnumeral]
    cases hnegative : l.negative with
    | true =>
      have hcount : l.count? = none := if_neg fun h => absurd (hnegative.symm.trans h.1) (by decide)
      rw [hcount]
      rfl
    | false =>
      rw [if_neg Bool.false_ne_true]
      by_cases hlt : l.numeral.wholePart < UInt32.size
      · have hcount : l.count? = some l.numeral.wholePart.toUInt32 :=
          if_pos ⟨hnegative, hfraction, hexponent, hlt⟩
        simp only [bind, Except.bind, Number.toCount, if_pos hlt, hcount]
        rfl
      · have hcount : l.count? = none := if_neg fun h => hlt h.2.2.2
        simp only [bind, Except.bind, Number.toCount, if_neg hlt, hcount]
        rfl
  · have hcount : l.count? = none := by
      apply if_neg
      rintro ⟨hnegative, hfraction, hexponent, hlt⟩
      have hle := hlarge (l.isWhole_iff.2 ⟨hfraction, hexponent⟩) hnegative
      exact absurd hle (not_le.2 (hlt.trans (by decide)))
    rw [hnumber, hcount]
    cases l.numeral.real? <;> rfl

theorem readReal_chars : readReal (blanks ++ (l.chars ++ rest)) = match l.real? with
    | some x => .ok (x, rest)
    | none => .error (.malformed .numberOutOfRange) := by
  rw [readReal, l.readNumberAs_chars "f64" hblanks hrest, real?]
  cases l.numeral.number? <;> rfl

end

/-- Rounding three times does not lead out of the floats but from next to their end. -/
theorem exists_real? (h : l.size ≤ (2 ^ 53 - 7 / 2) * 2 ^ (971 : ℤ)) : ∃ x, l.real? = some x := by
  rcases l.numeral.number?_cases with ⟨-, -, hnumber⟩ | ⟨hnumber, -⟩
  · exact ⟨_, by rw [real?, hnumber, Option.map_some]⟩
  · obtain ⟨x, hx⟩ := exists_scale? l.numeral.taken_lt (l.numeral.taken_le.trans h)
    exact ⟨_, by rw [real?, hnumber, l.numeral.real?_eq_taken, hx]; rfl⟩

theorem value?_withSign {x : Float} {q : ℚ} (hx : value? x = some q) (negative : Bool) :
    value? (Numeral.withSign negative x) = some (if negative then -q else q) := by
  cases negative with
  | false => exact hx
  | true => exact Binary.value?_neg hx

theorem nearest_value : nearest l.value =
    if l.numeral.negative then -nearest l.size else nearest l.size := by
  change nearest (if l.numeral.negative then -l.size else l.size) = _
  split
  · exact Binary.nearest_neg l.size
  · rfl

theorem size_of_isWhole (h : l.numeral.isWhole = true) : l.size = l.numeral.wholePart := by
  obtain ⟨hfraction, hexponent⟩ := l.isWhole_iff.1 h
  simp [size, numeral, Numeral.significand, Numeral.lastExponent, Numeral.wholePart, hfraction,
    hexponent]

theorem size_le {l : Literal} (hfits : l.numeral.significand < 2 ^ 64)
    (hexponent : l.numeral.lastExponent ≤ 22) : l.size ≤ 2 ^ (152 : ℤ) := by
  have hsignificand : (l.numeral.significand : ℚ) ≤ 2 ^ 64 := by exact_mod_cast hfits.le
  calc l.size ≤ 2 ^ 64 * 10 ^ (22 : ℤ) :=
        mul_le_mul hsignificand (zpow_le_zpow_right₀ (by norm_num) hexponent) (by positivity)
          (by positivity)
    _ ≤ 2 ^ (152 : ℤ) := by norm_num

/-- A number with few enough digits gives the float nearest to it. -/
theorem value?_real? (hfits : l.numeral.significand < 2 ^ 64)
    (hexact : ReadsExactly ⟨l.numeral.significand, l.numeral.lastExponent⟩) :
    ∃ x, l.real? = some x ∧ value? x = some (nearest l.value) := by
  rcases l.numeral.number?_cases with ⟨hwhole, hsize, hnumber⟩ | ⟨hnumber, -⟩
  · have hvalue := value?_coefficient hsize
    rw [← l.size_of_isWhole hwhole] at hvalue
    rw [l.nearest_value]
    refine ⟨_, ?_, value?_withSign hvalue _⟩
    rw [real?, hnumber, Numeral.withSign, Option.map_some]
    cases l.numeral.negative <;> rfl
  · have hexponent := hexact.exponent
    dsimp only at hexponent
    have hle : l.size ≤ (2 ^ 53 - 7 / 2) * 2 ^ (971 : ℤ) :=
      (size_le hfits (by omega)).trans pow_152_le
    obtain ⟨x, hx⟩ := exists_scale? hfits hle
    have hvalue := value?_readDigits hfits hexact
    have hscaled := scaled_of_scale? (by omega) (by omega) hx
    rw [readDigits, hscaled] at hvalue
    rw [l.nearest_value]
    refine ⟨_, ?_, value?_withSign (hvalue.trans ?_) _⟩
    · rw [real?, hnumber, Numeral.real?_eq hfits, hx]
      rfl
    · have hend : (2 ^ 53 - 7 / 2 : ℚ) * 2 ^ (971 : ℤ) ≤ (2 ^ 53 - 1 : ℕ) * 2 ^ (971 : ℤ) :=
        mul_le_mul_of_nonneg_right (by norm_num) (by positivity)
      exact Binary.nearest?_of_le (by rw [Digits.value]; positivity) (hle.trans hend)

end Literal

end TileWorld.Json
