import TileWorld.Json.Structure
import TileWorld.Json.Value
import TileWorld.Proofs.Json.Numeral
import TileWorld.Proofs.Json.Token

/-! Objects. What reading does to the members of a written object, in either layout, is what it does
to one member after the other. -/

namespace TileWorld.Json

/-- A reading that succeeds has succeeded in each of its parts. -/
theorem exists_of_bind {ε α β : Type} {x : Except ε α} {f : α → Except ε β} {b : β}
    (h : x >>= f = .ok b) : ∃ a, x = .ok a ∧ f a = .ok b := by
  cases x with
  | error e => cases h
  | ok a => exact ⟨a, rfl, h⟩

/-- What every member keeps holds behind the last one. -/
theorem readMembersUpTo_keeps {σ : Type}
    {member : σ → String → List Char → Except Error (σ × List Char)} {P : σ → Prop}
    (hmember : ∀ s key cs s' rest, member s key cs = .ok (s', rest) → P s → P s') {n : Nat}
    {first : Bool} {s s' : σ} {cs rest : List Char}
    (h : readMembersUpTo member n first s cs = .ok (s', rest)) (hs : P s) : P s' := by
  induction n generalizing first s cs with
  | zero => cases h
  | succ n ih =>
    rw [readMembersUpTo] at h
    obtain ⟨⟨key, behind⟩, -, hkey⟩ := exists_of_bind h
    cases key with
    | none =>
      cases hkey
      exact hs
    | some key =>
      obtain ⟨⟨next, behind⟩, hnext, hmore⟩ := exists_of_bind hkey
      exact ih hmore (hmember _ _ _ _ _ hnext hs)

/-- What stands before each part between two brackets. -/
def lead (indent : Option Nat) : List Char :=
  match indent with
  | none => []
  | some n => '\n' :: List.replicate n ' '

/-- What stands behind the last part. -/
def trail (indent : Option Nat) : List Char := lead (indent.map (· - 2))

theorem isBlank_of_mem_lead {indent : Option Nat} {c : Char} (h : c ∈ lead indent) :
    isBlank c = true := by
  cases indent with
  | none => cases h
  | some n =>
    rcases List.mem_cons.1 h with rfl | h
    · rfl
    · rw [List.eq_of_mem_replicate h]
      rfl

theorem intercalate_cons (sep p : List Char) (ps : List (List Char)) :
    List.intercalate sep (p :: ps) = p ++ ps.flatMap (sep ++ ·) := by
  induction ps generalizing p with
  | nil => rw [List.intercalate_singleton, List.flatMap_nil, List.append_nil]
  | cons q ps ih =>
    rw [List.intercalate_cons_cons, ih, List.flatMap_cons, List.append_assoc, List.append_assoc]

theorem bracket_cons (opening closing : Char) (indent : Option Nat) (p : List Char)
    (ps : List (List Char)) :
    bracket opening closing indent (p :: ps) =
      opening :: (lead indent ++ (p ++ (ps.flatMap (fun q => ',' :: (lead indent ++ q)) ++
        (trail indent ++ [closing])))) := by
  cases indent <;> simp [bracket, lead, trail, intercalate_cons]

theorem memberChars_map {ι : Type} (indent : Option Nat) (member : ι → String × Value)
    (is : List ι) : Value.memberChars indent (is.map member) =
      is.map fun i => keyChars indent (member i).1 ++ (member i).2.chars indent := by
  induction is with
  | nil => rfl
  | cons i is ih =>
    rw [List.map_cons, List.map_cons, Value.memberChars, ih]

/-- What stands between a key and its value. -/
def colon (indent : Option Nat) : List Char := if indent.isSome then [':', ' '] else [':']

/-- Behind the colon there may be a blank. -/
theorem readColon_colon (indent : Option Nat) (cs : List Char) :
    ∃ blanks : List Char, (∀ b ∈ blanks, isBlank b = true) ∧
      readColon (colon indent ++ cs) = .ok (blanks ++ cs) := by
  cases indent with
  | none => exact ⟨[], nofun, rfl⟩
  | some n =>
    refine ⟨[' '], fun b hb => ?_, rfl⟩
    rw [List.mem_singleton.1 hb]
    rfl

section
variable (indent : Option Nat) (key : String) (cs : List Char)

theorem readKey_keyChars :
    ∃ rest, keyChars indent key ++ cs = '"' :: rest ∧
      readKey rest = .ok (some key, colon indent ++ cs) := by
  obtain ⟨rest, htext, hread⟩ := readText_textChars key (colon indent ++ cs)
  refine ⟨rest, ?_, ?_⟩
  · rw [keyChars, List.append_assoc]
    exact htext
  · rw [readKey, hread]
    exact congrArg (fun s => Except.ok (some s, colon indent ++ cs)) (String.ofList_toList)

theorem nextKey?_first :
    nextKey? true (lead indent ++ (keyChars indent key ++ cs)) =
      .ok (some key, colon indent ++ cs) := by
  obtain ⟨rest, htext, hread⟩ := readKey_keyChars indent key cs
  rw [htext, nextKey?, skipBlank_append (fun _ h => isBlank_of_mem_lead h),
    skipBlank_cons (by decide)]
  exact hread

theorem nextKey?_next :
    nextKey? false (',' :: (lead indent ++ (keyChars indent key ++ cs))) =
      .ok (some key, colon indent ++ cs) := by
  obtain ⟨rest, htext, hread⟩ := readKey_keyChars indent key cs
  rw [htext, nextKey?, skipBlank_cons (by decide)]
  change (if false = true then _ else _) = _
  rw [if_neg (by decide), if_pos rfl, skipBlank_append (fun _ h => isBlank_of_mem_lead h),
    skipBlank_cons (by decide)]
  exact hread

theorem nextKey?_close (first : Bool) :
    nextKey? first (trail indent ++ '\x7d' :: cs) = .ok (none, cs) := by
  rw [nextKey?, trail, skipBlank_append (fun _ h => isBlank_of_mem_lead h),
    skipBlank_cons (by decide)]
  rfl

end

section
variable {σ ι : Type} {member : σ → String → List Char → Except Error (σ × List Char)}
  {indent : Option Nat} {key : ι → String} {body : ι → List Char} {step : σ → ι → Except Error σ}
  (hmember : ∀ s i rest, EndsNumber rest →
    member s (key i) (colon indent ++ (body i ++ rest)) = (step s i).map (·, rest))

/-- The members behind the first one, up to the closing brace. -/
def furtherChars (indent : Option Nat) (key : ι → String) (body : ι → List Char) (is : List ι)
    (rest : List Char) : List Char :=
  is.flatMap (fun i => ',' :: (lead indent ++ (keyChars indent (key i) ++ body i))) ++
    (trail indent ++ '\x7d' :: rest)

theorem furtherChars_cons (i : ι) (is : List ι) (rest : List Char) :
    furtherChars indent key body (i :: is) rest =
      ',' :: (lead indent ++ (keyChars indent (key i) ++
        (body i ++ furtherChars indent key body is rest))) := by
  simp [furtherChars]

theorem length_lt_furtherChars (indent : Option Nat) (key : ι → String) (body : ι → List Char)
    (is : List ι) (rest : List Char) :
    is.length < (furtherChars indent key body is rest).length := by
  induction is with
  | nil =>
    simp only [furtherChars, List.length_nil, List.length_append, List.length_cons]
    omega
  | cons i is ih =>
    simp only [furtherChars_cons, List.length_cons, List.length_append]
    omega

theorem endsNumber_furtherChars (is : List ι) (rest : List Char) :
    EndsNumber (furtherChars indent key body is rest) := by
  cases is with
  | nil => cases indent <;> exact endsNumber_cons _ (by decide)
  | cons i is => exact endsNumber_cons _ (by decide)

include hmember

theorem readMembersUpTo_further (is : List ι) (rest : List Char) {n : Nat} (hn : is.length < n)
    (s : σ) :
    readMembersUpTo member n false s (furtherChars indent key body is rest) =
      (is.foldlM step s).map (·, rest) := by
  induction is generalizing s n with
  | nil =>
    obtain ⟨n, rfl⟩ := Nat.exists_eq_add_of_lt hn
    rw [readMembersUpTo, furtherChars, List.flatMap_nil, List.nil_append, nextKey?_close]
    rfl
  | cons i is ih =>
    obtain ⟨n, rfl⟩ : ∃ k, n = k + 1 := ⟨n - 1, by omega⟩
    rw [readMembersUpTo, furtherChars_cons, nextKey?_next, List.foldlM_cons]
    simp only [bind, Except.bind, hmember s i _ (endsNumber_furtherChars is rest)]
    cases hstep : step s i with
    | error e => rfl
    | ok s' => exact ih (by simpa using hn) s'

/-- The text of an object behind its opening brace. -/
theorem readMembers_written (i : ι) (is : List ι) (rest : List Char) (s : σ) :
    readMembers member s (lead indent ++ (keyChars indent (key i) ++ (body i ++
        furtherChars indent key body is rest))) =
      ((i :: is).foldlM step s).map (·, rest) := by
  have hfurther := length_lt_furtherChars indent key body is rest
  rw [readMembers, readMembersUpTo, nextKey?_first, List.foldlM_cons]
  simp only [bind, Except.bind, hmember s i _ (endsNumber_furtherChars is rest)]
  cases hstep : step s i with
  | error e => rfl
  | ok s' =>
    refine readMembersUpTo_further hmember is rest ?_ s'
    simp only [List.length_append]
    omega

end

theorem objectChars {ι : Type} (indent : Option Nat) (member : ι → String × Value) (i : ι)
    (is : List ι) :
    (Value.object ((i :: is).map member)).chars indent =
      '\x7b' :: (lead indent ++ (keyChars indent (member i).1 ++
        ((member i).2.chars (indent.map (· + 2)) ++
          furtherChars indent (fun i => (member i).1)
            (fun i => (member i).2.chars (indent.map (· + 2))) is []))) := by
  have hkey (key : String) : keyChars (indent.map (· + 2)) key = keyChars indent key := by
    cases indent <;> rfl
  rw [Value.chars, memberChars_map, List.map_cons, bracket_cons]
  simp only [hkey, furtherChars, List.flatMap_map, List.append_assoc]

/-- A document that holds an object and nothing else is read member after member. -/
theorem readDocument_object {σ ι : Type}
    {reader : σ → String → List Char → Except Error (σ × List Char)} {indent : Option Nat}
    {member : ι → String × Value} {step : σ → ι → Except Error σ}
    (hreader : ∀ s i rest, EndsNumber rest →
      reader s (member i).1 (colon indent ++ ((member i).2.chars (indent.map (· + 2)) ++ rest)) =
        (step s i).map (·, rest))
    (expected : String) (readItems : List Char → Except Error (σ × List Char)) (i : ι) (is : List ι)
    (s : σ) :
    readDocument (readRecord expected readItems (readMembers reader s))
        (String.ofList ((Value.object ((i :: is).map member)).chars indent)) =
      (i :: is).foldlM step s := by
  rw [readDocument, String.toList_ofList, objectChars, readRecord, skipBlank_cons (by decide)]
  change (readMembers reader s _).bind _ = _
  rw [readMembers_written hreader i is [] s]
  cases (i :: is).foldlM step s <;> rfl

end TileWorld.Json
