import TileWorld.Proofs.Config.Overlay
import TileWorld.Proofs.Json.Literal
import TileWorld.Proofs.Json.Spelling

/-! The members of a configuration as they may be written, with keys and numbers in any of their forms
and blanks between all tokens. Each adds its assignment, and the next is read as if it were the first
one but for the comma. -/

namespace TileWorld.Config
open Json

/-- The value that a number gives to a field. -/
def Kind.valueOf? : (k : Kind) → Literal → Option k.Value
  | .count, l => l.count?
  | .real, l => l.real?

/-- Why a number gives no value to a field. -/
def Kind.fault : Kind → Literal → Error
  | .count, l => l.countFault
  | .real, _ => .malformed .numberOutOfRange

theorem Kind.read_literal (k : Kind) (l : Literal) {blanks rest : List Char}
    (hblanks : ∀ b ∈ blanks, isBlank b = true) (hrest : EndsNumber rest) :
    k.read (blanks ++ (l.chars ++ rest)) = match k.valueOf? l with
      | some v => .ok (v, rest)
      | none => .error (k.fault l) := by
  cases k with
  | count =>
    refine (l.readCount_chars hblanks hrest).trans ?_
    rw [Kind.valueOf?]
    cases l.count? <;> rfl
  | real =>
    refine (l.readReal_chars hblanks hrest).trans ?_
    rw [Kind.valueOf?]
    cases l.real? <;> rfl

/-- What may stand between two tokens. -/
structure Blanks where
  chars : List Char
  blank : ∀ b ∈ chars, isBlank b = true

/-- A key in its quotes, behind blanks. -/
structure Key where
  lead : Blanks
  pieces : List Piece

namespace Key

def text (k : Key) : String := Piece.text k.pieces

def chars (k : Key) : List Char :=
  k.lead.chars ++ '"' :: (k.pieces.flatMap Piece.chars ++ ['"'])

end Key

/-- A number behind a colon. -/
structure Entry where
  beforeColon : Blanks
  afterColon : Blanks
  literal : Literal

def Entry.chars (e : Entry) : List Char :=
  e.beforeColon.chars ++ ':' :: (e.afterColon.chars ++ e.literal.chars)

/-- A member that gives a field a value. -/
structure Member where
  key : Key
  field : Field
  named : key.text = field.name
  entry : Entry
  value : field.Value
  readable : field.kind.valueOf? entry.literal = some value
  trail : Blanks

namespace Member

def chars (m : Member) : List Char := m.key.chars ++ (m.entry.chars ++ m.trail.chars)

def assignment (m : Member) : Assignment := ⟨m.field, m.value⟩

end Member

/-- Parts with a comma in front of each, but not in front of the first one of all. -/
def separated : (first : Bool) → List (List Char) → List Char
  | _, [] => []
  | first, p :: ps => (if first then p else ',' :: p) ++ separated false ps

theorem separated_true (ps : List (List Char)) :
    separated true ps = List.intercalate [','] ps := by
  have hfurther (ps : List (List Char)) : separated false ps = ps.flatMap ([','] ++ ·) := by
    induction ps with
    | nil => rfl
    | cons p ps ih =>
      rw [separated, ih]
      rfl
  cases ps with
  | nil => rfl
  | cons p ps =>
    rw [intercalate_cons, separated, hfurther]
    rfl

theorem skipBlank_blanks (b : Blanks) (cs : List Char) :
    skipBlank (b.chars ++ cs) = skipBlank cs := skipBlank_append b.blank cs

theorem nextKey?_blanks (first : Bool) (b : Blanks) (cs : List Char) :
    nextKey? first (b.chars ++ cs) = nextKey? first cs := by
  rw [nextKey?, nextKey?, skipBlank_blanks]

theorem readMembersUpTo_blanks {σ : Type}
    (member : σ → String → List Char → Except Error (σ × List Char)) (n : Nat) (first : Bool)
    (s : σ) (b : Blanks) (cs : List Char) :
    readMembersUpTo member n first s (b.chars ++ cs) = readMembersUpTo member n first s cs := by
  cases n with
  | zero => rfl
  | succ n => rw [readMembersUpTo, readMembersUpTo, nextKey?_blanks]

theorem nextKey?_key (first : Bool) (k : Key) (cs : List Char) :
    nextKey? first ((if first then k.chars else ',' :: k.chars) ++ cs) = .ok (some k.text, cs) := by
  have hread := Piece.readKey_chars k.pieces cs
  have hchars : k.chars ++ cs =
      k.lead.chars ++ '"' :: (k.pieces.flatMap Piece.chars ++ '"' :: cs) := by
    simp [Key.chars]
  cases first with
  | true =>
    rw [if_pos rfl, hchars, nextKey?_blanks, nextKey?, skipBlank_cons (by decide)]
    exact hread
  | false =>
    rw [if_neg (by decide), List.cons_append, hchars, nextKey?, skipBlank_cons (by decide)]
    change (if false = true then _ else _) = _
    rw [if_neg (by decide), if_pos rfl, skipBlank_blanks, skipBlank_cons (by decide)]
    exact hread

/-- A member that is read as a whole up to the blanks behind it. -/
theorem readMembersUpTo_key {σ : Type}
    {member : σ → String → List Char → Except Error (σ × List Char)} {s s' : σ} {k : Key}
    (trail : Blanks) {body rest : List Char}
    (h : member s k.text (body ++ rest) = .ok (s', trail.chars ++ rest)) (n : Nat) (first : Bool) :
    readMembersUpTo member (n + 1) first s
        ((if first then k.chars ++ body else ',' :: (k.chars ++ body)) ++ rest) =
      readMembersUpTo member n false s' rest := by
  have hchars : (if first then k.chars ++ body else ',' :: (k.chars ++ body)) ++ rest =
      (if first then k.chars else ',' :: k.chars) ++ (body ++ rest) := by
    cases first <;> simp
  rw [hchars, readMembersUpTo, nextKey?_key]
  simp only [bind, Except.bind, h]
  exact readMembersUpTo_blanks member n false s' trail rest

theorem readColon_entry (e : Entry) (cs : List Char) :
    readColon (e.chars ++ cs) = .ok (e.afterColon.chars ++ (e.literal.chars ++ cs)) := by
  rw [Entry.chars, List.append_assoc, List.cons_append, List.append_assoc,
    readColon_blanks e.beforeColon.blank]

theorem readMember_entry {done : List Assignment} {f : Field}
    (hnew : done.any (·.field = f) = false) (e : Entry) {rest : List Char}
    (hrest : EndsNumber rest) :
    readMember done f.name (e.chars ++ rest) = match f.kind.valueOf? e.literal with
      | some v => .ok (done ++ [⟨f, v⟩], rest)
      | none => .error (f.kind.fault e.literal) := by
  rw [readMember, Field.ofName?_name]
  dsimp only
  rw [hnew, if_neg (by decide), readColon_entry]
  change (Assignment.read f _).bind _ = _
  rw [Assignment.read, f.kind.read_literal e.literal e.afterColon.blank hrest]
  cases f.kind.valueOf? e.literal <;> rfl

/-- A good member adds its assignment. -/
theorem readMembersUpTo_member {done : List Assignment} (m : Member)
    (hnew : done.any (·.field = m.field) = false) (n : Nat) (first : Bool) {rest : List Char}
    (hrest : EndsNumber rest) :
    readMembersUpTo readMember (n + 1) first done
        ((if first then m.chars else ',' :: m.chars) ++ rest) =
      readMembersUpTo readMember n false (done ++ [m.assignment]) rest := by
  have hentry := readMember_entry hnew m.entry (endsNumber_blanks m.trail.blank hrest)
  rw [m.readable, ← m.named, ← List.append_assoc] at hentry
  exact readMembersUpTo_key m.trail hentry n first

theorem endsNumber_separated (p : List Char) (ps : List (List Char)) (rest : List Char) :
    EndsNumber (separated false (p :: ps) ++ rest) := endsNumber_cons _ (by decide)

/-- What reading does to separated parts is what it does to one part after the other, as long as the
state is good for all the parts that are left. What follows them is read as it would be behind
them. -/
theorem readMembersUpTo_separated {σ ι : Type}
    {member : σ → String → List Char → Except Error (σ × List Char)} {chars : ι → List Char}
    {step : σ → ι → σ} (Good : σ → List ι → Prop)
    (hstep : ∀ s i is, Good s (i :: is) → Good (step s i) is ∧ ∀ n first rest, EndsNumber rest →
      readMembersUpTo member (n + 1) first s ((if first then chars i else ',' :: chars i) ++ rest) =
        readMembersUpTo member n false (step s i) rest)
    (is : List ι) (s : σ) (h : Good s is) (n : Nat) (first : Bool) (more : List (List Char))
    {rest : List Char} (hrest : EndsNumber (separated false more ++ rest)) :
    readMembersUpTo member (is.length + n) first s
        (separated first (is.map chars ++ more) ++ rest) =
      readMembersUpTo member n (first && is.isEmpty) (is.foldl step s)
        (separated (first && is.isEmpty) more ++ rest) := by
  induction is generalizing s first with
  | nil =>
    rw [List.map_nil, List.nil_append, List.length_nil, Nat.zero_add, List.isEmpty_nil,
      Bool.and_true]
    rfl
  | cons i is ih =>
    obtain ⟨hnext, hread⟩ := hstep s i is h
    have hbehind : EndsNumber (separated false (is.map chars ++ more) ++ rest) := by
      cases is with
      | nil => exact hrest
      | cons i' is => exact endsNumber_separated _ _ rest
    rw [List.length_cons, Nat.succ_add, List.map_cons, List.cons_append, separated,
      List.append_assoc, hread _ first _ hbehind, ih _ hnext, List.isEmpty_cons, Bool.and_false,
      Bool.false_and, List.foldl_cons]

/-- Members for different fields, none of which is assigned yet. -/
structure Assignable (done : List Assignment) (ms : List Member) : Prop where
  distinct : (ms.map Member.field).Nodup
  unassigned : ∀ a ∈ done, a.field ∉ ms.map Member.field

theorem Assignable.next {done : List Assignment} {m : Member} {ms : List Member}
    (h : Assignable done (m :: ms)) : Assignable (done ++ [m.assignment]) ms := by
  obtain ⟨hm, hms⟩ := List.nodup_cons.1 h.distinct
  exact ⟨hms, field_not_mem_of_append h.unassigned hm⟩

/-- Good members add their assignments in order. -/
theorem readMembersUpTo_members {ms : List Member} {done : List Assignment}
    (h : Assignable done ms) (n : Nat) (first : Bool) (more : List (List Char)) {rest : List Char}
    (hrest : EndsNumber (separated false more ++ rest)) :
    readMembersUpTo readMember (ms.length + n) first done
        (separated first (ms.map Member.chars ++ more) ++ rest) =
      readMembersUpTo readMember n (first && ms.isEmpty) (done ++ ms.map Member.assignment)
        (separated (first && ms.isEmpty) more ++ rest) := by
  have hread := readMembersUpTo_separated Assignable
    (fun done m ms h => ⟨h.next, fun n first rest =>
      readMembersUpTo_member m (any_field_eq_false h.unassigned) n first⟩)
    ms done h n first more hrest
  rwa [List.foldl_append_eq_append, ← List.flatMap_def, ← List.map_eq_flatMap] at hread

theorem length_le_separated {ps : List (List Char)} (h : ∀ p ∈ ps, p ≠ []) (first : Bool)
    (more : List (List Char)) : ps.length ≤ (separated first (ps ++ more)).length := by
  induction ps generalizing first with
  | nil => exact Nat.zero_le _
  | cons p ps ih =>
    have hpart : 0 < (if first then p else ',' :: p).length := by
      cases first with
      | true => exact List.length_pos_iff.2 (h p List.mem_cons_self)
      | false => exact Nat.succ_pos _
    have hmore := ih (fun q hq => h q (List.mem_cons_of_mem p hq)) false
    rw [List.cons_append, separated, List.length_cons, List.length_append]
    omega

end TileWorld.Config
