import TileWorld.Proofs.Config.Overlay
import TileWorld.Proofs.Json.Scalar

/-! A configuration that is written as JSON and read again. Counts come back as they were, and each
float as the one that is read from its digits. A float that is not finite is written as null, which
is refused. -/

namespace TileWorld.Config
open Json

/-- The configuration that is read from the text of one whose floats are finite. -/
def reread (c : Config) : Config :=
  { c with
    dt := Json.reread c.dt
    gravity := Json.reread c.gravity
    friction := Json.reread c.friction
    solidProbability := Json.reread c.solidProbability }

def reals (c : Config) : List Float := [c.dt, c.gravity, c.friction, c.solidProbability]

def nullForReal : Error := .mismatched (.invalidType .null "f64")

/-- What reading gives for the written form of a value. -/
def Kind.reread : (k : Kind) → k.Value → Except Error k.Value
  | .count, n => .ok n
  | .real, x => if x.isFinite then .ok (Json.reread x) else .error nullForReal

theorem Kind.read_chars (k : Kind) (v : k.Value) (indent : Option Nat) {blanks rest : List Char}
    (hblanks : ∀ b ∈ blanks, isBlank b = true) (hrest : EndsNumber rest) :
    k.read (blanks ++ ((k.toJson v).chars indent ++ rest)) = (k.reread v).map (·, rest) := by
  cases k with
  | count =>
    rw [Kind.toJson, Value.chars]
    exact readCount_digits hblanks hrest v
  | real =>
    rw [Kind.toJson, Value.chars, Kind.reread]
    by_cases hfinite : Float.isFinite v = true
    · rw [if_pos hfinite]
      exact readReal_chars hblanks hrest hfinite
    · rw [if_neg hfinite, realChars, if_neg hfinite, Kind.read, readReal,
        readNumberAs_null hblanks]
      rfl

/-- What reading the member of a field does to the assignments made before. -/
def rereadMember (c : Config) (done : List Assignment) (f : Field) :
    Except Error (List Assignment) :=
  if done.any (·.field = f) then .error (.mismatched (.duplicateField f.name))
  else (f.kind.reread (c.get f)).map fun v => done ++ [⟨f, v⟩]

theorem readMember_name (c : Config) (indent : Option Nat) (done : List Assignment) (f : Field)
    {rest : List Char} (hrest : EndsNumber rest) :
    readMember done f.name
        (colon indent ++ ((f.kind.toJson (c.get f)).chars (indent.map (· + 2)) ++ rest)) =
      (rereadMember c done f).map (·, rest) := by
  obtain ⟨blanks, hblanks, hcolon⟩ := readColon_colon indent
    ((f.kind.toJson (c.get f)).chars (indent.map (· + 2)) ++ rest)
  rw [readMember, Field.ofName?_name, rereadMember]
  dsimp only
  split
  · rfl
  · rw [hcolon]
    change (Assignment.read f _).bind _ = _
    rw [Assignment.read, Kind.read_chars _ _ _ hblanks hrest]
    cases f.kind.reread (c.get f) <;> rfl

theorem Kind.reread_get {c : Config} (h : ∀ x ∈ c.reals, x.isFinite = true) (f : Field) :
    f.kind.reread (c.get f) = .ok (c.reread.get f) := by
  have hreal {x : Float} (hx : x ∈ c.reals) : Kind.real.reread x = .ok (Json.reread x) :=
    if_pos (h x hx)
  cases f with
  | dt => exact hreal (x := c.dt) (by simp [reals])
  | gravity => exact hreal (x := c.gravity) (by simp [reals])
  | friction => exact hreal (x := c.friction) (by simp [reals])
  | solidProbability => exact hreal (x := c.solidProbability) (by simp [reals])
  | _ => rfl

theorem Kind.reread_cases (k : Kind) (v : k.Value) :
    (∃ v', k.reread v = .ok v') ∨ k.reread v = .error nullForReal := by
  cases k with
  | count => exact Or.inl ⟨v, rfl⟩
  | real =>
    rw [Kind.reread]
    split
    · exact Or.inl ⟨_, rfl⟩
    · exact Or.inr rfl

theorem foldlM_rereadMember {c : Config} (h : ∀ x ∈ c.reals, x.isFinite = true) (fs : List Field)
    (hfs : fs.Nodup) (done : List Assignment) (hdone : ∀ a ∈ done, a.field ∉ fs) :
    fs.foldlM c.rereadMember done = .ok (done ++ fs.map fun f => ⟨f, c.reread.get f⟩) := by
  induction fs generalizing done with
  | nil => exact congrArg Except.ok (List.append_nil done).symm
  | cons f fs ih =>
    obtain ⟨hf, hfs⟩ := List.nodup_cons.1 hfs
    have hnew : done.any (·.field = f) = false := any_field_eq_false hdone
    rw [List.foldlM_cons, rereadMember, hnew, Kind.reread_get h f]
    change fs.foldlM c.rereadMember (done ++ [⟨f, c.reread.get f⟩]) = _
    refine (ih hfs _ (field_not_mem_of_append hdone hf)).trans ?_
    rw [List.append_assoc]
    rfl

/-- All fields but one may be read before the one is refused. -/
theorem foldlM_rereadMember_error {c : Config} {f : Field}
    (hf : f.kind.reread (c.get f) = .error nullForReal) (fs : List Field) (hmem : f ∈ fs)
    (hfs : fs.Nodup) (done : List Assignment) (hdone : ∀ a ∈ done, a.field ∉ fs) :
    fs.foldlM c.rereadMember done = .error nullForReal := by
  induction fs generalizing done with
  | nil => cases hmem
  | cons f' fs ih =>
    obtain ⟨hf', hfs⟩ := List.nodup_cons.1 hfs
    have hnew : done.any (·.field = f') = false := any_field_eq_false hdone
    rw [List.foldlM_cons, rereadMember, hnew]
    rcases Kind.reread_cases f'.kind (c.get f') with ⟨v, hv⟩ | hv
    · have hne : f ≠ f' := by
        rintro rfl
        rw [hf] at hv
        cases hv
      rw [hv]
      exact ih ((List.mem_cons.1 hmem).resolve_left hne) hfs (done ++ [⟨f', v⟩])
        (field_not_mem_of_append hdone hf')
    · rw [hv]
      rfl

theorem overlay_all (c d : Config) : c.overlay (Field.all.map fun f => ⟨f, d.get f⟩) = d := by
  have hdistinct : ((Field.all.map fun f => Assignment.mk f (d.get f)).map
      Assignment.field).Nodup := by
    rw [List.map_map]
    exact (by decide : Field.all.Nodup)
  exact ext_get fun f => get_overlay_of_mem hdistinct (List.mem_map_of_mem f.mem_all)

/-- Reading the text of a configuration, in either layout, is reading each of its members. -/
theorem ofJson_chars (c : Config) (indent : Option Nat) :
    ofJson (String.ofList (c.toJson.chars indent)) =
      (Field.all.foldlM c.rereadMember []).map fun as => ({} : Config).overlay as := by
  have hread : readDocument readAssignments (String.ofList (c.toJson.chars indent)) =
      Field.all.foldlM c.rereadMember [] :=
    readDocument_object (fun done f _ hrest => readMember_name c indent done f hrest) typeName
      (readItems Field.all true) Field.frames Field.all.tail []
  change (readDocument readAssignments _).bind _ = _
  rw [hread]
  cases Field.all.foldlM c.rereadMember [] <;> rfl

theorem ofJson_chars_of_finite {c : Config} (h : ∀ x ∈ c.reals, x.isFinite = true)
    (indent : Option Nat) : ofJson (String.ofList (c.toJson.chars indent)) = .ok c.reread := by
  rw [ofJson_chars, foldlM_rereadMember h Field.all (by decide) [] nofun]
  exact congrArg Except.ok (overlay_all {} c.reread)

theorem ofJson_chars_of_not_finite {c : Config} (h : ∃ x ∈ c.reals, x.isFinite = false)
    (indent : Option Nat) :
    ofJson (String.ofList (c.toJson.chars indent)) = .error nullForReal := by
  obtain ⟨x, hx, hfinite⟩ := h
  have hfield : ∃ f : Field, f.kind.reread (c.get f) = .error nullForReal := by
    have hreal : Kind.real.reread x = .error nullForReal := if_neg (by simp [hfinite])
    simp only [reals, List.mem_cons, List.not_mem_nil, or_false] at hx
    rcases hx with rfl | rfl | rfl | rfl
    · exact ⟨.dt, hreal⟩
    · exact ⟨.gravity, hreal⟩
    · exact ⟨.friction, hreal⟩
    · exact ⟨.solidProbability, hreal⟩
  obtain ⟨f, hf⟩ := hfield
  rw [ofJson_chars, foldlM_rereadMember_error hf Field.all f.mem_all (by decide) [] nofun]
  rfl

/-- What comes back from the two texts of a configuration. The digits in them are those of no other
float; it is in reading them that a float may be missed. -/
structure RoundTrip (c : Config) : Prop where
  digits : ∀ x ∈ c.reals, ∀ q, Binary.value? x = some q →
    Binary.nearest (digitsOf x).value = |q|
  finite : (∀ x ∈ c.reals, x.isFinite = true) →
    ofJson c.toJson.compact = .ok c.reread ∧ ofJson c.toJson.pretty = .ok c.reread
  not_finite : (∃ x ∈ c.reals, x.isFinite = false) →
    ofJson c.toJson.compact = .error nullForReal ∧ ofJson c.toJson.pretty = .error nullForReal
  exact : (∀ x ∈ c.reals, ReadsExactly (digitsOf x)) → c.reread = c

theorem reread_eq_self {c : Config} (h : ∀ x ∈ c.reals, ReadsExactly (digitsOf x)) :
    c.reread = c := by
  have hreal {x : Float} (hx : x ∈ c.reals) : Json.reread x = x := Json.reread_eq_self (h x hx)
  rw [reread, hreal (x := c.dt) (by simp [reals]), hreal (x := c.gravity) (by simp [reals]),
    hreal (x := c.friction) (by simp [reals]), hreal (x := c.solidProbability) (by simp [reals])]

theorem roundTrip (c : Config) : c.RoundTrip where
  digits _ _ _ h := nearest_digitsOf h
  finite h := ⟨ofJson_chars_of_finite h none, ofJson_chars_of_finite h (some 2)⟩
  not_finite h := ⟨ofJson_chars_of_not_finite h none, ofJson_chars_of_not_finite h (some 2)⟩
  exact := reread_eq_self

/-- The significand of the default frame length is longer than a float's own, but even. -/
theorem readsExactly_default : ∀ x ∈ ({} : Config).reals, ReadsExactly (digitsOf x) := by
  have hdigits : ({} : Config).reals.map digitsOf =
      [⟨16666666666666666, -18⟩, ⟨180, -1⟩, ⟨80, -1⟩, ⟨18, -2⟩] := by decide +kernel
  intro x hx
  have hmem := List.mem_map_of_mem (f := digitsOf) hx
  rw [hdigits] at hmem
  simp only [List.mem_cons, List.not_mem_nil, or_false] at hmem
  rcases hmem with h | h | h | h <;> rw [h]
  · exact readsExactly_of_eq (n := 8333333333333333) (k := 1) (by norm_num) (by norm_num)
      (by decide)
  · exact readsExactly_of_eq (n := 180) (k := 0) (by norm_num) (by norm_num) (by decide)
  · exact readsExactly_of_eq (n := 80) (k := 0) (by norm_num) (by norm_num) (by decide)
  · exact readsExactly_of_eq (n := 18) (k := 0) (by norm_num) (by norm_num) (by decide)

theorem roundTrip_default : ofJson ({} : Config).toJson.compact = .ok {} ∧
    ofJson ({} : Config).toJson.pretty = .ok {} := by
  have htrip := roundTrip {}
  have hread := htrip.finite (by decide +kernel)
  rw [htrip.exact readsExactly_default] at hread
  exact hread

/-- The greatest chance below one that a cell may be given. -/
def nearOne : Config := { solidProbability := .ofBits 0x3fefffffffffffff }

/-- Converting the sixteen nines rounds up, so that the quotient is one. -/
theorem ofJson_nearOne :
    ofJson nearOne.toJson.compact = .ok { nearOne with solidProbability := 1 } ∧
      ofJson nearOne.toJson.pretty = .ok { nearOne with solidProbability := 1 } ∧
      ({ nearOne with solidProbability := 1 } : Config) ≠ nearOne := by
  have hfinite : ∀ x ∈ nearOne.reals, x.isFinite = true := by decide +kernel
  have hreread : nearOne.reread = { nearOne with solidProbability := 1 } := by decide +kernel
  rw [← hreread]
  refine ⟨ofJson_chars_of_finite hfinite none, ofJson_chars_of_finite hfinite (some 2), ?_⟩
  decide +kernel

end TileWorld.Config
