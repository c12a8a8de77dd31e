import TileWorld.Json.Skip
import TileWorld.Proofs.Json.Grammar

/-! Passing over a value. Whatever the grammar has for a value is passed over as a whole, and what
is behind it is left. -/

namespace TileWorld.Json
open Decimal (signed)

theorem skipText_mark (m : Mark) (cs : List Char) : skipText (m.chars ++ cs) = skipText cs := by
  cases m with
  | plain c h =>
    change skipText (c :: cs) = _
    rw [skipText.eq_def]
    split
    · next heq => cases heq
    · next heq => exact absurd (List.cons.inj heq).1 h.1
    · next heq => exact absurd (List.cons.inj heq).1 h.2.1
    · next heq =>
      obtain ⟨rfl, rfl⟩ := List.cons.inj heq
      exact if_neg h.2.2
  | letter l c h =>
    unfold letterEscape? at h
    split at h <;> cases h <;> rfl
  | unit a b c d u h =>
    change skipText ('\\' :: 'u' :: a :: b :: c :: d :: cs) = _
    rw [skipText]
    simp only [h]

theorem skipText_marks (ms : List Mark) (cs : List Char) :
    skipText (ms.flatMap Mark.chars ++ '"' :: cs) = .ok cs := by
  induction ms with
  | nil => rfl
  | cons m ms ih => rw [List.flatMap_cons, List.append_assoc, skipText_mark, ih]

section
variable {ds rest : List Char} (hds : ∀ c ∈ ds, c.isDigit = true) (hne : ds ≠ [])
  (hrest : ∀ c ∈ rest.head?, c.isDigit = false)
include hds hne hrest

theorem skipDigits_append : skipDigits (ds ++ rest) = .ok rest := by
  obtain ⟨d, ds, rfl⟩ := List.exists_cons_of_ne_nil hne
  have hdrop := dropWhile_digits (fun c hc => hds c (List.mem_cons_of_mem d hc)) hrest
  rw [List.cons_append, skipDigits, hds d List.mem_cons_self, if_pos rfl, hdrop]

theorem skipExponent?_signChars (sign : Option Bool) :
    skipExponent? ('e' :: (signChars sign ++ (ds ++ rest))) = .ok rest := by
  have hdigits := skipDigits_append hds hne hrest
  rcases sign with _ | _ | _
  · rw [signChars, List.nil_append, skipExponent?]
    · exact hdigits
    · exact digits_append_ne hds hne rest (by decide)
    · exact digits_append_ne hds hne rest (by decide)
  · exact hdigits
  · exact hdigits

end

theorem skipFraction?_fractionChars {ds rest : List Char} (hds : ∀ c ∈ ds, c.isDigit = true)
    (hrest : ∀ c ∈ rest.head?, c.isDigit = false ∧ c ≠ '.') :
    skipFraction? (Numeral.fractionChars ds ++ rest) = .ok rest := by
  rw [Numeral.fractionChars]
  split
  · rw [List.nil_append, skipFraction?.eq_def]
    split
    · exact absurd rfl (hrest _ rfl).2
    · rfl
  · next hempty =>
    exact skipDigits_append hds (by simpa using hempty) fun c hc => (hrest c hc).1

namespace Literal
variable (l : Literal)

theorem skipExponent?_exponentChars {rest : List Char} (hrest : EndsNumber rest) :
    skipExponent? (l.exponentChars ++ rest) = .ok rest := by
  rw [exponentChars]
  cases l.exponent with
  | none =>
    rw [Option.map_none, Option.getD_none, List.nil_append, skipExponent?.eq_def]
    split
    · exact absurd rfl (hrest _ rfl).2.2.1
    · exact absurd rfl (hrest _ rfl).2.2.2
    · rfl
  | some e =>
    have hmark : skipExponent? (e.chars ++ rest) =
        skipExponent? ('e' :: (signChars e.sign ++ (e.digits ++ rest))) := by
      rw [ExponentSpelling.chars, List.cons_append, List.append_assoc]
      cases e.capital <;> rfl
    exact hmark.trans (skipExponent?_signChars e.isDigit e.digits_ne_nil
      (fun c hc => (hrest c hc).1) e.sign)

theorem skipNumber_unsigned {rest : List Char} (hrest : EndsNumber rest) :
    skipNumber (l.whole ++ (Numeral.fractionChars l.fraction ++ (l.exponentChars ++ rest))) =
      .ok rest := by
  have hends : ∀ c ∈ (Numeral.fractionChars l.fraction ++ (l.exponentChars ++ rest)).head?,
      c.isDigit = false := head?_fractionChars l.fraction (l.head?_exponentChars hrest)
  have hwhole := skipDigits_append l.proper.whole_digits l.proper.whole_ne_nil hends
  have hfraction := skipFraction?_fractionChars l.proper.fraction_digits
    (l.head?_exponentChars hrest)
  generalize Numeral.fractionChars l.fraction ++ (l.exponentChars ++ rest) = behind at *
  dsimp only at hwhole hfraction
  -- a leading zero is the only digit, so all of the digits are gone
  have hleading : ((l.whole ++ behind).head? = some '0' &&
      behind.length + 1 < (l.whole ++ behind).length) = false := by
    rw [Bool.and_eq_false_imp, decide_eq_true_eq, decide_eq_false_iff_not,
      List.head?_append_of_ne_nil _ l.proper.whole_ne_nil, List.length_append]
    intro hzero
    have hone : l.whole.length = 1 := l.proper.leading hzero
    omega
  rw [skipNumber]
  simp only [hwhole, bind, Except.bind, hleading, hfraction]
  exact l.skipExponent?_exponentChars hrest

theorem skipScalar_chars {rest : List Char} (hrest : EndsNumber rest) :
    skipScalar (l.chars ++ rest) = .ok rest := by
  obtain ⟨d, ds, hd, hunsigned⟩ := l.exists_digit_unsigned
  have hnumber := l.skipNumber_unsigned hrest
  rw [← List.append_assoc, ← List.append_assoc, List.append_assoc l.whole, hunsigned] at hnumber
  rw [chars, hunsigned]
  cases l.negative with
  | true => exact hnumber
  | false =>
    have hne {c : Char} (hc : c.isDigit = false) : d ≠ c := by
      rintro rfl
      rw [hd] at hc
      cases hc
    change skipScalar (d :: (ds ++ rest)) = _
    rw [skipScalar, if_pos hd]
    · exact hnumber
    all_goals exact hne (by decide)

end Literal

/-- What is done behind a part of a value: the next value is passed over if there is one. -/
def goOn (n : Nat) (r : Except Error (List Frame × List Char)) : Except Error (List Char) := do
  match ← r with
  | ([], rest) => return rest
  | (frame :: frames, rest) => skipUpTo n (frame :: frames) rest

theorem skipUpTo_succ (n : Nat) (frames : List Frame) (cs : List Char) :
    skipUpTo (n + 1) frames cs = goOn n (skipStart frames cs) := rfl

theorem skipBlank_skipBlank (cs : List Char) : skipBlank (skipBlank cs) = skipBlank cs :=
  List.dropWhile_idempotent _ _

theorem skipUpTo_skipBlank (n : Nat) (frames : List Frame) (cs : List Char) :
    skipUpTo n frames (skipBlank cs) = skipUpTo n frames cs := by
  cases n with
  | zero => rfl
  | succ n =>
    rw [skipUpTo_succ, skipUpTo_succ, skipStart, skipStart, skipBlank_skipBlank]

theorem skipUpTo_blanks {bs : List Char} (h : ∀ b ∈ bs, isBlank b = true) (n : Nat)
    (frames : List Frame) (cs : List Char) :
    skipUpTo n frames (bs ++ cs) = skipUpTo n frames cs := by
  rw [← skipUpTo_skipBlank, skipBlank_append h, skipUpTo_skipBlank]

theorem skipToNext_blanks {bs : List Char} (h : ∀ b ∈ bs, isBlank b = true) (frame : Frame)
    (frames : List Frame) (cs : List Char) :
    skipToNext (frame :: frames) (bs ++ cs) = skipToNext (frame :: frames) cs := by
  cases frame <;> rw [skipToNext, skipToNext, skipBlank_append h]

theorem skipKey_skipBlank (cs : List Char) : skipKey (skipBlank cs) = skipKey cs := by
  rw [skipKey, skipKey, skipBlank_skipBlank]

theorem skipKey_quoted {bs bs' : List Char} (hbs : ∀ b ∈ bs, isBlank b = true)
    (hbs' : ∀ b ∈ bs', isBlank b = true) (ms : List Mark) (cs : List Char) :
    skipKey (bs ++ (quoted ms ++ (bs' ++ ':' :: cs))) = .ok cs := by
  rw [skipKey, skipBlank_append hbs, quoted, List.cons_append, List.append_assoc,
    skipBlank_cons (by decide)]
  change (skipText (ms.flatMap Mark.chars ++ '"' :: (bs' ++ ':' :: cs))).bind readColon = _
  rw [skipText_marks]
  exact readColon_blanks hbs' cs

/-- What `k` steps do at the beginning of a text of each kind, with `n` steps left for what is
behind it. Elements and members are passed over with the bracket that closes them. -/
def Passes : Phrase → Nat → List Char → Prop
  | .value, k, cs => ∀ n frames rest, EndsNumber rest →
      skipUpTo (k + n) frames (cs ++ rest) = goOn n (skipToNext frames rest)
  | .element, k, cs => ∀ n frame frames rest, EndsNumber rest →
      skipUpTo (k + n) (frame :: frames) (cs ++ rest) =
        goOn n (skipToNext (frame :: frames) rest)
  | .elements, k, cs => ∀ n frames rest,
      skipUpTo (k + n) (.list :: frames) (cs ++ ']' :: rest) = goOn n (skipToNext frames rest)
  | .member, k, cs => ∀ n frames rest, EndsNumber rest →
      goOn (k + n) ((skipKey (cs ++ rest)).map (.object :: frames, ·)) =
        goOn n (skipToNext (.object :: frames) rest)
  | .members, k, cs => ∀ n frames rest,
      goOn (k + n) ((skipKey (cs ++ '\x7d' :: rest)).map (.object :: frames, ·)) =
        goOn n (skipToNext frames rest)

section
variable (frames : List Frame)

theorem skipStart_scalar {c : Char} {cs rest : List Char} (hblank : isBlank c = false)
    (hlist : c ≠ '[') (hobject : c ≠ '\x7b') (h : skipScalar (c :: cs) = .ok rest) :
    skipStart frames (c :: cs) = skipToNext frames rest := by
  rw [skipStart, skipBlank_cons hblank]
  split
  · next heq => cases heq
  · next heq => exact absurd (List.cons.inj heq).1 hlist
  · next heq => exact absurd (List.cons.inj heq).1 hobject
  · rw [h]
    rfl

theorem skipStart_list {c : Char} {cs ds : List Char} (h : skipBlank cs = c :: ds) (hne : c ≠ ']') :
    skipStart frames ('[' :: cs) = .ok (.list :: frames, skipBlank cs) := by
  rw [skipStart, skipBlank_cons (by decide)]
  simp only [h]
  split
  · next heq => cases heq
  · next heq => exact absurd (List.cons.inj heq).1 hne
  · rfl

theorem skipStart_emptyList {cs rest : List Char} (h : skipBlank cs = ']' :: rest) :
    skipStart frames ('[' :: cs) = skipToNext frames rest := by
  rw [skipStart, skipBlank_cons (by decide)]
  simp only [h]

theorem skipStart_object {cs ds : List Char} (h : skipBlank cs = '"' :: ds) :
    skipStart frames ('\x7b' :: cs) = (skipKey (skipBlank cs)).map (.object :: frames, ·) := by
  rw [skipStart, skipBlank_cons (by decide)]
  simp only [h]
  rfl

theorem skipStart_emptyObject {cs rest : List Char} (h : skipBlank cs = '\x7d' :: rest) :
    skipStart frames ('\x7b' :: cs) = skipToNext frames rest := by
  rw [skipStart, skipBlank_cons (by decide)]
  simp only [h]

end

section
variable {cs : List Char}

theorem passes_scalar {c : Char} (hblank : isBlank c = false) (hlist : c ≠ '[')
    (hobject : c ≠ '\x7b')
    (h : ∀ rest, EndsNumber rest → skipScalar (c :: (cs ++ rest)) = .ok rest) :
    Passes .value 1 (c :: cs) := by
  intro n frames rest hrest
  rw [Nat.add_comm, skipUpTo_succ, List.cons_append,
    skipStart_scalar frames hblank hlist hobject (h rest hrest)]

theorem passes_emptyList {bs : List Char} (h : ∀ b ∈ bs, isBlank b = true) :
    Passes .value 1 ('[' :: (bs ++ [']'])) := by
  intro n frames rest _
  have hclose : skipBlank (bs ++ ']' :: rest) = ']' :: rest := by
    rw [skipBlank_append h, skipBlank_cons (by decide)]
  rw [Nat.add_comm, skipUpTo_succ, List.cons_append, List.append_assoc, List.singleton_append,
    skipStart_emptyList frames hclose]

theorem passes_list (hcs : Grammatical .elements cs) {k : Nat} (h : Passes .elements k cs) :
    Passes .value (k + 1) ('[' :: (cs ++ [']'])) := by
  intro n frames rest _
  -- the first item is looked at behind its blanks, to tell whether there is one
  obtain ⟨c, ds, hhead, hne⟩ := hcs.skipBlank_elements (']' :: rest)
  rw [Nat.add_right_comm, skipUpTo_succ, List.cons_append, List.append_assoc,
    List.singleton_append, skipStart_list frames hhead hne]
  exact (skipUpTo_skipBlank _ _ _).trans (h n frames rest)

theorem passes_emptyObject {bs : List Char} (h : ∀ b ∈ bs, isBlank b = true) :
    Passes .value 1 ('\x7b' :: (bs ++ ['\x7d'])) := by
  intro n frames rest _
  have hclose : skipBlank (bs ++ '\x7d' :: rest) = '\x7d' :: rest := by
    rw [skipBlank_append h, skipBlank_cons (by decide)]
  rw [Nat.add_comm, skipUpTo_succ, List.cons_append, List.append_assoc, List.singleton_append,
    skipStart_emptyObject frames hclose]

theorem passes_object (hcs : Grammatical .members cs) {k : Nat} (h : Passes .members k cs) :
    Passes .value (k + 1) ('\x7b' :: (cs ++ ['\x7d'])) := by
  intro n frames rest _
  obtain ⟨ds, hhead⟩ := hcs.skipBlank_members ('\x7d' :: rest)
  rw [Nat.add_right_comm, skipUpTo_succ, List.cons_append, List.append_assoc,
    List.singleton_append, skipStart_object frames hhead, skipKey_skipBlank]
  exact h n frames rest

theorem passes_element {bs bs' : List Char} (hbs : ∀ b ∈ bs, isBlank b = true)
    (hbs' : ∀ b ∈ bs', isBlank b = true) {k : Nat} (h : Passes .value k cs) :
    Passes .element k (bs ++ (cs ++ bs')) := by
  intro n frame frames rest hrest
  rw [List.append_assoc, List.append_assoc, skipUpTo_blanks hbs,
    h n (frame :: frames) (bs' ++ rest) (endsNumber_blanks hbs' hrest), skipToNext_blanks hbs']

theorem passes_lastElement {k : Nat} (h : Passes .element k cs) : Passes .elements k cs := by
  intro n frames rest
  rw [h n .list frames (']' :: rest) (endsNumber_cons _ (by decide)), skipToNext,
    skipBlank_cons (by decide)]
  rfl

theorem passes_elements {ds : List Char} {k k' : Nat} (h : Passes .element k cs)
    (h' : Passes .elements k' ds) : Passes .elements (k + k') (cs ++ ',' :: ds) := by
  intro n frames rest
  rw [Nat.add_assoc, List.append_assoc, List.cons_append,
    h (k' + n) .list frames _ (endsNumber_cons _ (by decide)), skipToNext,
    skipBlank_cons (by decide)]
  exact h' n frames rest

theorem passes_member {bs bs' : List Char} (hbs : ∀ b ∈ bs, isBlank b = true)
    (ms : List Mark) (hbs' : ∀ b ∈ bs', isBlank b = true) {k : Nat} (h : Passes .element k cs) :
    Passes .member k (bs ++ (quoted ms ++ (bs' ++ ':' :: cs))) := by
  intro n frames rest hrest
  rw [List.append_assoc, List.append_assoc, List.append_assoc, List.cons_append,
    skipKey_quoted hbs hbs']
  exact h n .object frames rest hrest

theorem passes_lastMember {k : Nat} (h : Passes .member k cs) : Passes .members k cs := by
  intro n frames rest
  rw [h n frames ('\x7d' :: rest) (endsNumber_cons _ (by decide)), skipToNext,
    skipBlank_cons (by decide)]
  rfl

theorem passes_members {ds : List Char} {k k' : Nat} (h : Passes .member k cs)
    (h' : Passes .members k' ds) : Passes .members (k + k') (cs ++ ',' :: ds) := by
  intro n frames rest
  rw [Nat.add_assoc, List.append_assoc, List.cons_append,
    h (k' + n) frames _ (endsNumber_cons _ (by decide)), skipToNext, skipBlank_cons (by decide)]
  exact h' n frames rest

end

/-- Each value and each container takes a step, for which it has at least one character. -/
theorem exists_passes {p : Phrase} {cs : List Char} (h : Grammatical p cs) :
    ∃ k ≤ cs.length, Passes p k cs := by
  induction h with
  | null =>
    exact ⟨1, by decide, passes_scalar (by decide) (by decide) (by decide) fun _ _ => rfl⟩
  | yes =>
    exact ⟨1, by decide, passes_scalar (by decide) (by decide) (by decide) fun _ _ => rfl⟩
  | no =>
    exact ⟨1, by decide, passes_scalar (by decide) (by decide) (by decide) fun _ _ => rfl⟩
  | number l =>
    have hskip : ∀ rest, EndsNumber rest → skipScalar (l.chars ++ rest) = .ok rest :=
      fun _ => l.skipScalar_chars
    obtain ⟨c, cs, hchars, rfl | hdigit⟩ := l.exists_cons_chars
    · simp only [hchars] at hskip ⊢
      exact ⟨1, by simp, passes_scalar (by decide) (by decide) (by decide) hskip⟩
    · simp only [hchars] at hskip ⊢
      refine ⟨1, by simp, passes_scalar (isBlank_of_isDigit hdigit) ?_ ?_ hskip⟩
      · rintro rfl
        cases hdigit
      · rintro rfl
        cases hdigit
  | text ms =>
    refine ⟨1, by simp [quoted], passes_scalar (by decide) (by decide) (by decide) ?_⟩
    intro rest _
    rw [List.append_assoc]
    exact skipText_marks ms rest
  | emptyList blank => exact ⟨1, by simp, passes_emptyList blank⟩
  | list items ih =>
    obtain ⟨k, hk, hpasses⟩ := ih
    exact ⟨k + 1, by simp; omega, passes_list items hpasses⟩
  | emptyObject blank => exact ⟨1, by simp, passes_emptyObject blank⟩
  | object entries ih =>
    obtain ⟨k, hk, hpasses⟩ := ih
    exact ⟨k + 1, by simp; omega, passes_object entries hpasses⟩
  | element blank value blank' ih =>
    obtain ⟨k, hk, hpasses⟩ := ih
    exact ⟨k, by simp; omega, passes_element blank blank' hpasses⟩
  | lastElement item ih =>
    obtain ⟨k, hk, hpasses⟩ := ih
    exact ⟨k, hk, passes_lastElement hpasses⟩
  | elements item more ih ih' =>
    obtain ⟨k, hk, hpasses⟩ := ih
    obtain ⟨k', hk', hpasses'⟩ := ih'
    exact ⟨k + k', by simp; omega, passes_elements hpasses hpasses'⟩
  | member blank key blank' item ih =>
    obtain ⟨k, hk, hpasses⟩ := ih
    exact ⟨k, by simp; omega, passes_member blank key blank' hpasses⟩
  | lastMember entry ih =>
    obtain ⟨k, hk, hpasses⟩ := ih
    exact ⟨k, hk, passes_lastMember hpasses⟩
  | members entry more ih ih' =>
    obtain ⟨k, hk, hpasses⟩ := ih
    obtain ⟨k', hk', hpasses'⟩ := ih'
    exact ⟨k + k', by simp; omega, passes_members hpasses hpasses'⟩

/-- A value is passed over up to the blanks behind it. -/
theorem skipValue_element {cs rest : List Char} (h : Grammatical .element cs)
    (hrest : EndsNumber rest) : ∃ bs, (∀ b ∈ bs, isBlank b = true) ∧
      skipValue (cs ++ rest) = .ok (bs ++ rest) := by
  cases h with
  | @element bs ds bs' blank value blank' =>
    refine ⟨bs', blank', ?_⟩
    obtain ⟨k, hk, hpasses⟩ := exists_passes value
    obtain ⟨n, hn⟩ : ∃ n, (bs ++ (ds ++ bs') ++ rest).length + 1 = k + n :=
      Nat.exists_eq_add_of_le (by simp; omega)
    have hvalue := hpasses n [] (bs' ++ rest) (endsNumber_blanks blank' hrest)
    rw [skipValue, hn, List.append_assoc, List.append_assoc, skipUpTo_blanks blank, hvalue]
    rfl

end TileWorld.Json
