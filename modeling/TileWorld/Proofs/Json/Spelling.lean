import TileWorld.Json.Structure
import TileWorld.Proofs.Json.Token

/-! Text in all the forms that JSON has for it. Most characters may stand for themselves, some have a
letter behind a backslash, and each has its number there, in two parts if it is a large one. -/

namespace TileWorld.Json

/-- A character that may stand for itself. -/
abbrev Plain (c : Char) : Prop := c ≠ '"' ∧ c ≠ '\\' ∧ ¬ c < ' '

/-- One character of a text as it may be written. -/
inductive Piece where
  | plain (c : Char) (plain : Plain c)
  | letter (l c : Char) (meaning : letterEscape? l = some c)
  | unit (a b c d : Char) (u : Nat) (meaning : hexUnit? a b c d = some u)
    (not_low : ¬ IsLowSurrogate u) (not_high : ¬ IsHighSurrogate u)
  | pair (a b c d a' b' c' d' : Char) (u v : Nat) (first : hexUnit? a b c d = some u)
    (second : hexUnit? a' b' c' d' = some v) (high : IsHighSurrogate u) (low : IsLowSurrogate v)

namespace Piece

def char : Piece → Char
  | plain c .. => c
  | letter _ c _ => c
  | unit _ _ _ _ u .. => .ofNat u
  | pair _ _ _ _ _ _ _ _ u v .. => .ofNat (0x10000 + (u - 0xD800) * 0x400 + (v - 0xDC00))

def chars : Piece → List Char
  | plain c .. => [c]
  | letter l .. => ['\\', l]
  | unit a b c d .. => ['\\', 'u', a, b, c, d]
  | pair a b c d a' b' c' d' .. => ['\\', 'u', a, b, c, d, '\\', 'u', a', b', c', d']

theorem readText_letter {l c : Char} (h : letterEscape? l = some c) (acc cs : List Char) :
    readText acc ('\\' :: l :: cs) = readText (c :: acc) cs := by
  unfold letterEscape? at h
  split at h <;> cases h <;> rfl

theorem readText_chars (p : Piece) (acc cs : List Char) :
    readText acc (p.chars ++ cs) = readText (p.char :: acc) cs := by
  cases p with
  | plain c h => exact readText_of_ne h.1 h.2.1 h.2.2 acc cs
  | letter l c h => exact readText_letter h acc cs
  | unit a b c d u h hlow hhigh => exact readText_unit h hlow hhigh acc cs
  | pair a b c d a' b' c' d' u v hu hv hhigh hlow =>
    have hfirst : ¬ IsLowSurrogate u := fun h => absurd h.1 (by omega)
    change readText acc ('\\' :: 'u' :: a :: b :: c :: d :: '\\' :: 'u' :: a' :: b' :: c' :: d' ::
      cs) = _
    rw [readText]
    simp only [hu, hv, if_neg hfirst, if_pos hhigh, if_pos hlow]
    rfl

def text (ps : List Piece) : String := String.ofList (ps.map char)

theorem text_plain {s : String} (h : ∀ c ∈ s.toList, Plain c) :
    text (s.toList.pmap plain h) = s := by
  have hchars : (s.toList.pmap plain h).map char = s.toList := by
    rw [List.map_pmap]
    exact (List.pmap_eq_map h).trans (List.map_id _)
  rw [text, hchars, String.ofList_toList]

/-- A text with each of its characters as it stands. -/
def asIs (s : String) (h : s.toList.all (fun c => decide (Plain c)) = true) : List Piece :=
  s.toList.pmap plain fun c hc => of_decide_eq_true (List.all_eq_true.1 h c hc)

theorem text_asIs (s : String) (h : s.toList.all (fun c => decide (Plain c)) = true) :
    text (asIs s h) = s := text_plain _

/-- A key is read as the text it stands for, however it is written. -/
theorem readKey_chars (ps : List Piece) (cs : List Char) :
    readKey (ps.flatMap chars ++ '"' :: cs) = .ok (some (text ps), cs) := by
  have hread (acc : List Char) : readText acc (ps.flatMap chars ++ '"' :: cs) =
      .ok (acc.reverse ++ ps.map char, cs) := by
    induction ps generalizing acc with
    | nil =>
      rw [List.flatMap_nil, List.map_nil, List.append_nil]
      rfl
    | cons p ps ih =>
      rw [List.flatMap_cons, List.append_assoc, readText_chars, ih, List.reverse_cons,
        List.append_assoc]
      rfl
  rw [readKey, hread]
  rfl

end Piece

end TileWorld.Json
