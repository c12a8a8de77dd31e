import TileWorld.Generator.Json
import TileWorld.Proofs.Config.Member
import TileWorld.Proofs.Json.Skip

/-! Generators that are saved and loaded again. Every document that gives the state, with whatever
else in it and however it is spaced, gives back the generator, and so the draws go on from there. -/

namespace TileWorld.Generator
open Json
open Config (Blanks Key Entry separated)

/-- A member that is passed over. -/
structure Extra where
  key : Key
  other : key.text ≠ stateKey
  beforeColon : Blanks
  element : List Char
  grammatical : Grammatical .element element

def Extra.chars (e : Extra) : List Char :=
  e.key.chars ++ (e.beforeColon.chars ++ ':' :: e.element)

/-- The member that gives the state. -/
structure StateMember (g : Generator) where
  key : Key
  named : key.text = stateKey
  entry : Entry
  readable : entry.literal.count? = some g.state
  trail : Blanks

def StateMember.chars {g : Generator} (m : StateMember g) : List Char :=
  m.key.chars ++ (m.entry.chars ++ m.trail.chars)

/-- A document for a generator, in any form. -/
structure Saved (g : Generator) where
  before : Blanks
  prior : List Extra
  state : StateMember g
  later : List Extra
  after : Blanks

namespace Saved
variable {g : Generator} (d : Saved g)

def parts : List (List Char) :=
  d.prior.map Extra.chars ++ d.state.chars :: d.later.map Extra.chars

def text : String :=
  String.ofList (d.before.chars ++ '\x7b' ::
    (List.intercalate [','] d.parts ++ '\x7d' :: d.after.chars))

end Saved

theorem readMembersUpTo_extra (e : Extra) (s : Option UInt32) (n : Nat) (first : Bool)
    {rest : List Char} (hrest : EndsNumber rest) :
    readMembersUpTo readMember (n + 1) first s
        ((if first then e.chars else ',' :: e.chars) ++ rest) =
      readMembersUpTo readMember n false s rest := by
  obtain ⟨bs, hbs, hskip⟩ := skipValue_element e.grammatical hrest
  have hmember : readMember s e.key.text (e.beforeColon.chars ++ ':' :: e.element ++ rest) =
      .ok (s, bs ++ rest) := by
    rw [readMember, if_neg e.other, List.append_assoc, List.cons_append,
      readColon_blanks e.beforeColon.blank]
    simp only [bind, Except.bind, hskip]
    rfl
  exact Config.readMembersUpTo_key ⟨bs, hbs⟩ hmember n first

theorem readMembersUpTo_state {g : Generator} (m : StateMember g) (n : Nat) (first : Bool)
    {rest : List Char} (hrest : EndsNumber rest) :
    readMembersUpTo readMember (n + 1) first none
        ((if first then m.chars else ',' :: m.chars) ++ rest) =
      readMembersUpTo readMember n false (some g.state) rest := by
  have hcount := m.entry.literal.readCount_chars m.entry.afterColon.blank
    (endsNumber_blanks m.trail.blank hrest)
  rw [m.readable] at hcount
  have hmember : readMember none m.key.text (m.entry.chars ++ m.trail.chars ++ rest) =
      .ok (some g.state, m.trail.chars ++ rest) := by
    rw [readMember, if_pos m.named, List.append_assoc, Config.readColon_entry]
    simp only [bind, Except.bind, hcount]
    rfl
  exact Config.readMembersUpTo_key m.trail hmember n first

/-- Further members leave the state as it is. -/
theorem readMembersUpTo_extras (es : List Extra) (s : Option UInt32) (n : Nat) (first : Bool)
    (more : List (List Char)) {rest : List Char}
    (hrest : EndsNumber (separated false more ++ rest)) :
    readMembersUpTo readMember (es.length + n) first s
        (separated first (es.map Extra.chars ++ more) ++ rest) =
      readMembersUpTo readMember n (first && es.isEmpty) s
        (separated (first && es.isEmpty) more ++ rest) := by
  have hread := Config.readMembersUpTo_separated (fun _ _ => True)
    (fun s e _ _ => ⟨trivial, fun n first rest => readMembersUpTo_extra e s n first⟩)
    es s trivial n first more hrest
  rwa [List.foldl_fixed] at hread

namespace Saved
variable {g : Generator} (d : Saved g)

theorem ne_nil_of_mem_parts {p : List Char} (h : p ∈ d.parts) : p ≠ [] := by
  have hkey (k : Key) (cs : List Char) : k.chars ++ cs ≠ [] := by simp [Key.chars]
  rcases List.mem_append.1 h with h | h
  · obtain ⟨e, -, rfl⟩ := List.mem_map.1 h
    exact hkey e.key _
  · rcases List.mem_cons.1 h with rfl | h
    · exact hkey d.state.key _
    · obtain ⟨e, -, rfl⟩ := List.mem_map.1 h
      exact hkey e.key _

/-- Each member takes a character at least, so there is a step left to find the closing brace. -/
theorem exists_steps : ∃ n, (separated true d.parts ++ '\x7d' :: d.after.chars).length + 1 =
    d.prior.length + (d.later.length + (n + 1) + 1) := by
  have hlength := Config.length_le_separated (fun p => d.ne_nil_of_mem_parts) true []
  rw [List.append_nil, parts, List.length_append, List.length_cons, List.length_map,
    List.length_map] at hlength
  obtain ⟨n, hn⟩ := Nat.exists_eq_add_of_le hlength
  refine ⟨n + d.after.chars.length + 1, ?_⟩
  rw [parts, List.length_append, hn, List.length_cons]
  omega

theorem readMembers_parts : readMembers readMember none
    (List.intercalate [','] d.parts ++ '\x7d' :: d.after.chars) =
      .ok (some g.state, d.after.chars) := by
  have hend : EndsNumber (separated false [] ++ '\x7d' :: d.after.chars) :=
    endsNumber_cons _ (by decide)
  have hlater : EndsNumber
      (separated false (d.later.map Extra.chars) ++ '\x7d' :: d.after.chars) := by
    cases d.later with
    | nil => exact hend
    | cons e es => exact Config.endsNumber_separated _ _ _
  -- the members before the state, the state, the members behind it, and the closing brace
  obtain ⟨n, hn⟩ := d.exists_steps
  have hlast := readMembersUpTo_extras d.later (some g.state) (n + 1) false [] hend
  rw [List.append_nil] at hlast
  rw [readMembers, ← Config.separated_true, hn, parts,
    readMembersUpTo_extras d.prior none _ true _ (Config.endsNumber_separated _ _ _),
    Bool.true_and, separated, List.append_assoc, readMembersUpTo_state d.state _ _ hlater, hlast,
    readMembersUpTo]
  rfl

/-- Each of the documents gives back the generator. -/
theorem ofJson_text : ofJson d.text = .ok g := by
  have hblank : skipBlank d.after.chars = [] := List.dropWhile_eq_nil_iff.2 d.after.blank
  have hfields : readFields (List.intercalate [','] d.parts ++ '\x7d' :: d.after.chars) =
      .ok (g, d.after.chars) := by
    rw [readFields, d.readMembers_parts]
    rfl
  rw [ofJson, readDocument, text, String.toList_ofList, readRecord,
    skipBlank_append d.before.blank, skipBlank_cons (by decide)]
  change (readFields _).bind _ = _
  rw [hfields]
  change (if (skipBlank d.after.chars).isEmpty then _ else _) = _
  rw [hblank]
  rfl

end Saved

section
variable (g : Generator)

theorem noBlank : ∀ b ∈ ([] : List Char), isBlank b = true := List.forall_mem_nil _

def noBlanks : Blanks := ⟨[], noBlank⟩

/-- The document that a generator is saved as. -/
def compactly : Saved g where
  before := noBlanks
  prior := []
  state :=
    { key := ⟨noBlanks, Piece.asIs stateKey rfl⟩
      named := Piece.text_asIs stateKey rfl
      entry := ⟨noBlanks, noBlanks, .natural g.state.toNat⟩
      readable := Literal.count?_natural g.state
      trail := noBlanks }
  later := []
  after := noBlanks

theorem text_compactly : (compactly g).text = g.toJson.compact := by
  have hkey : (compactly g).state.key.chars ++ [':'] = keyChars none stateKey := by
    change Key.chars ⟨noBlanks, Piece.asIs stateKey rfl⟩ ++ [':'] = _
    decide +kernel
  have hmember : (compactly g).state.chars =
      keyChars none stateKey ++ Decimal.digits g.state.toNat := by
    rw [← hkey, ← Literal.chars_natural, List.append_assoc]
    exact congrArg _ (List.append_nil _)
  have hparts : (compactly g).parts = [(compactly g).state.chars] := rfl
  rw [Saved.text, hparts, hmember]
  rfl

end

/-- A call on a generator. -/
inductive Request where
  | next
  | nextBelow (p : Float)

inductive Answer where
  | number (x : Float)
  | decision (b : Bool)

/-- What a call gives, and the generator behind it. -/
def reply (g : Generator) : Request → Answer × Generator
  | .next => (.number g.draw.1, g.draw.2)
  | .nextBelow p => (.decision (g.drawBelow p).1, (g.drawBelow p).2)

def replies : Generator → List Request → List (Answer × Generator)
  | _, [] => []
  | g, r :: rs => g.reply r :: replies (g.reply r).2 rs

/-- The generator behind all of the calls. -/
def behind (g : Generator) (rs : List Request) : Generator :=
  rs.foldl (fun g r => (g.reply r).2) g

theorem reply_snd (g : Generator) (r : Request) : (g.reply r).2 = ⟨step g.state⟩ := by
  cases r <;> rfl

/-- Each call is one draw. -/
theorem behind_eq_skip (g : Generator) (rs : List Request) : g.behind rs = g.skip rs.length := by
  induction rs generalizing g with
  | nil => rfl
  | cons r rs ih =>
    rw [behind, List.foldl_cons, reply_snd]
    exact ih _

theorem replies_append (g : Generator) (rs rs' : List Request) :
    g.replies (rs ++ rs') = g.replies rs ++ (g.behind rs).replies rs' := by
  induction rs generalizing g with
  | nil => rfl
  | cons r rs ih => exact congrArg (g.reply r :: ·) (ih (g.reply r).2)

/-- A generator that is saved after any calls, and read from the text or from any other document for
its state, is the same as before. So the calls that follow are answered as if it had not been saved,
with the same values and the same states behind them. -/
theorem resumes_saved (seed : UInt32) (earlier later : List Request) :
    let start : Generator := ⟨seed⟩
    let g := start.behind earlier
    g = start.skip earlier.length ∧ ofJson g.toJson.compact = .ok g ∧
      (∃ d : Saved g, d.text = g.toJson.compact) ∧
      ∀ d : Saved g, ∃ g', ofJson d.text = .ok g' ∧ g' = g ∧
        start.replies (earlier ++ later) = start.replies earlier ++ g'.replies later := by
  intro start g
  have hcompact := (compactly g).ofJson_text
  rw [text_compactly] at hcompact
  exact ⟨behind_eq_skip start earlier, hcompact, ⟨compactly g, text_compactly g⟩, fun d =>
    ⟨g, d.ofJson_text, rfl, replies_append start earlier later⟩⟩

section Example

def blank : Blanks := ⟨[' '], List.all_eq_true.1 rfl⟩

/-- The number `-1E999`, which is no float. -/
def huge : Literal where
  negative := true
  whole := ['1']
  fraction := []
  exponent := some ⟨true, none, ['9', '9', '9'], by decide, List.all_eq_true.1 rfl⟩
  proper := ⟨List.all_eq_true.1 rfl, List.all_eq_true.1 rfl, by decide, by decide⟩

/-- A list with a large number and an object, in which half of a pair is the key of a list. -/
def nested : Extra where
  key := ⟨noBlanks, [.letter 't' '\t' rfl]⟩
  other := by decide +kernel
  beforeColon := blank
  element := _
  grammatical := .element noBlank (.list (.elements (.element noBlank (.number huge) noBlank)
    (.lastElement (.element blank.blank (.object (.lastMember (.member noBlank
      [.unit 'd' '8' '0' '0' 0xD800 (by decide)] noBlank
      (.element noBlank (.emptyList blank.blank) noBlank)))) noBlank)))) blank.blank

def flagged : Extra where
  key := ⟨blank, Piece.asIs "ok" rfl⟩
  other := by decide +kernel
  beforeColon := noBlanks
  element := _
  grammatical := .element noBlank .yes noBlank

def annotated : Saved ⟨2238813396⟩ where
  before := noBlanks
  prior := [nested]
  state :=
    { key := ⟨noBlanks, .unit '0' '0' '7' '3' 0x73 (by decide) (by decide) (by decide) ::
        Piece.asIs "tate" rfl⟩
      named := by decide +kernel
      entry := ⟨noBlanks, blank, .natural 2238813396⟩
      readable := Literal.count?_natural 2238813396
      trail := noBlanks }
  later := [flagged]
  after := blank

/-- The state in the midst of other members, with its key escaped. -/
theorem resumes_saved_annotated :
    let start : Generator := ⟨123456789⟩
    let text := "\x7b\"\\t\" :[-1E999, \x7b\"\\ud800\":[ ]\x7d] ," ++
      "\"\\u0073tate\": 2238813396, \"ok\":true\x7d "
    start.behind [.next, .nextBelow 0.5] = ⟨2238813396⟩ ∧ annotated.text = text ∧
      ofJson text = .ok ⟨2238813396⟩ ∧
      start.replies [.next, .nextBelow 0.5, .next] =
        start.replies [.next, .nextBelow 0.5] ++ replies ⟨2238813396⟩ [.next] := by
  intro start text
  have hbehind : start.behind [.next, .nextBelow 0.5] = ⟨2238813396⟩ := by decide +kernel
  have htext : annotated.text = text := by decide +kernel
  obtain ⟨-, -, -, hsaved⟩ := resumes_saved 123456789 [.next, .nextBelow 0.5] [.next]
  rw [hbehind] at hsaved
  obtain ⟨g', hread, rfl, hreplies⟩ := hsaved annotated
  rw [htext] at hread
  exact ⟨hbehind, htext, hread, hreplies⟩

end Example

end TileWorld.Generator
