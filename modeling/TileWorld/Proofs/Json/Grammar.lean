import TileWorld.Proofs.Json.Literal
import TileWorld.Proofs.Json.Spelling

/-! JSON text in all its forms, as a grammar beside the readers. Numbers are of any size, containers
of any depth, and there may be blanks between any two tokens. -/

namespace TileWorld.Json

/-- A part of quoted text. Escaped units stand for themselves here and need not form pairs. -/
inductive Mark where
  | plain (c : Char) (plain : Plain c)
  | letter (l c : Char) (meaning : letterEscape? l = some c)
  | unit (a b c d : Char) (u : Nat) (meaning : hexUnit? a b c d = some u)

def Mark.chars : Mark → List Char
  | plain c _ => [c]
  | letter l _ _ => ['\\', l]
  | unit a b c d _ _ => ['\\', 'u', a, b, c, d]

def quoted (ms : List Mark) : List Char := '"' :: (ms.flatMap Mark.chars ++ ['"'])

/-- The kinds of text that the grammar tells apart. An element is a value with blanks around it.
Elements, or members, stand between the brackets of a container that is not empty. -/
inductive Phrase where
  | value
  | element
  | elements
  | member
  | members

/-- Which texts are of which kind. -/
inductive Grammatical : Phrase → List Char → Prop
  | null : Grammatical .value ['n', 'u', 'l', 'l']
  | yes : Grammatical .value ['t', 'r', 'u', 'e']
  | no : Grammatical .value ['f', 'a', 'l', 's', 'e']
  | number (l : Literal) : Grammatical .value l.chars
  | text (ms : List Mark) : Grammatical .value (quoted ms)
  | emptyList {bs : List Char} (blank : ∀ b ∈ bs, isBlank b = true) :
      Grammatical .value ('[' :: (bs ++ [']']))
  | list {cs : List Char} (items : Grammatical .elements cs) :
      Grammatical .value ('[' :: (cs ++ [']']))
  | emptyObject {bs : List Char} (blank : ∀ b ∈ bs, isBlank b = true) :
      Grammatical .value ('\x7b' :: (bs ++ ['\x7d']))
  | object {cs : List Char} (entries : Grammatical .members cs) :
      Grammatical .value ('\x7b' :: (cs ++ ['\x7d']))
  | element {bs cs bs' : List Char} (blank : ∀ b ∈ bs, isBlank b = true)
      (value : Grammatical .value cs) (blank' : ∀ b ∈ bs', isBlank b = true) :
      Grammatical .element (bs ++ (cs ++ bs'))
  | lastElement {cs : List Char} (item : Grammatical .element cs) : Grammatical .elements cs
  | elements {cs ds : List Char} (item : Grammatical .element cs)
      (more : Grammatical .elements ds) : Grammatical .elements (cs ++ ',' :: ds)
  | member {bs bs' cs : List Char} (blank : ∀ b ∈ bs, isBlank b = true) (key : List Mark)
      (blank' : ∀ b ∈ bs', isBlank b = true) (item : Grammatical .element cs) :
      Grammatical .member (bs ++ (quoted key ++ (bs' ++ ':' :: cs)))
  | lastMember {cs : List Char} (entry : Grammatical .member cs) : Grammatical .members cs
  | members {cs ds : List Char} (entry : Grammatical .member cs)
      (more : Grammatical .members ds) : Grammatical .members (cs ++ ',' :: ds)

namespace Grammatical
variable {cs : List Char}

/-- A value does not begin with a blank, nor with what closes a list. -/
theorem exists_cons_of_value (h : Grammatical .value cs) :
    ∃ c ds, cs = c :: ds ∧ isBlank c = false ∧ c ≠ ']' := by
  cases h with
  | number l =>
    obtain ⟨c, ds, hchars, rfl | hdigit⟩ := l.exists_cons_chars
    · exact ⟨_, _, hchars, by decide, by decide⟩
    · exact ⟨c, ds, hchars, isBlank_of_isDigit hdigit, by rintro rfl; cases hdigit⟩
  | _ => exact ⟨_, _, rfl, by decide, by decide⟩

theorem skipBlank_element (h : Grammatical .element cs) (rest : List Char) :
    ∃ c ds, skipBlank (cs ++ rest) = c :: ds ∧ c ≠ ']' := by
  cases h with
  | element blank value blank' =>
    obtain ⟨c, ds, rfl, hc, hne⟩ := value.exists_cons_of_value
    rw [List.append_assoc, skipBlank_append blank]
    exact ⟨c, _, skipBlank_cons hc _, hne⟩

theorem skipBlank_elements (h : Grammatical .elements cs) (rest : List Char) :
    ∃ c ds, skipBlank (cs ++ rest) = c :: ds ∧ c ≠ ']' := by
  cases h with
  | lastElement item => exact item.skipBlank_element rest
  | elements item more =>
    rw [List.append_assoc]
    exact item.skipBlank_element _

theorem skipBlank_member (h : Grammatical .member cs) (rest : List Char) :
    ∃ ds, skipBlank (cs ++ rest) = '"' :: ds := by
  cases h with
  | member blank key blank' item =>
    rw [List.append_assoc, skipBlank_append blank]
    exact ⟨_, skipBlank_cons (by decide) _⟩

theorem skipBlank_members (h : Grammatical .members cs) (rest : List Char) :
    ∃ ds, skipBlank (cs ++ rest) = '"' :: ds := by
  cases h with
  | lastMember entry => exact entry.skipBlank_member rest
  | members entry more =>
    rw [List.append_assoc]
    exact entry.skipBlank_member _

end Grammatical

end TileWorld.Json
