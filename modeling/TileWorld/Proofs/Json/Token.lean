import TileWorld.Json.Token
import TileWorld.Json.Value

/-! Blanks, and text in quotes. Written text reads back, whatever its characters are. -/

namespace TileWorld.Json

theorem skipBlank_cons {c : Char} (h : isBlank c = false) (cs : List Char) :
    skipBlank (c :: cs) = c :: cs := by
  rw [skipBlank, List.dropWhile_cons, h]
  rfl

theorem skipBlank_append {bs : List Char} (h : ∀ b ∈ bs, isBlank b = true) (cs : List Char) :
    skipBlank (bs ++ cs) = skipBlank cs := by
  induction bs with
  | nil => rfl
  | cons b bs ih =>
    have hb : isBlank b = true := h b List.mem_cons_self
    rw [List.cons_append, skipBlank, List.dropWhile_cons, hb]
    exact ih fun b hb => h b (List.mem_cons_of_mem _ hb)

theorem readText_of_ne {c : Char} (hq : c ≠ '"') (hb : c ≠ '\\') (hc : ¬ c < ' ') (acc : List Char)
    (cs : List Char) : readText acc (c :: cs) = readText (c :: acc) cs := by
  rw [readText.eq_def]
  split
  · next heq => cases heq
  · next heq => exact absurd (List.cons.inj heq).1 hq
  · next heq => exact absurd (List.cons.inj heq).1 hb
  · next heq =>
    obtain ⟨rfl, rfl⟩ := List.cons.inj heq
    exact if_neg hc

/-- A character may be escaped by its number, if that takes no more than 16 bits. -/
theorem readText_unit {a b c d : Char} {u : Nat} (hunit : hexUnit? a b c d = some u)
    (hlow : ¬ IsLowSurrogate u) (hhigh : ¬ IsHighSurrogate u) (acc cs : List Char) :
    readText acc ('\\' :: 'u' :: a :: b :: c :: d :: cs) = readText (Char.ofNat u :: acc) cs := by
  rw [readText]
  simp only [hunit, if_neg hlow, if_neg hhigh]

/-- Below the blank, a character that has no letter of its own is escaped by its number. -/
theorem readText_control {n : Nat} (hn : n < 32) (acc cs : List Char) :
    readText acc ('\\' :: 'u' :: '0' :: '0' :: Nat.digitChar (n / 16) :: Nat.digitChar (n % 16) ::
      cs) = readText (Char.ofNat n :: acc) cs := by
  have hunit : ∀ n < 32, hexUnit? '0' '0' (Nat.digitChar (n / 16)) (Nat.digitChar (n % 16)) =
      some n := by decide
  apply readText_unit (hunit n hn)
  · rintro ⟨h, -⟩
    omega
  · rintro ⟨h, -⟩
    omega

theorem readText_escapeChar (acc : List Char) (c : Char) (cs : List Char) :
    readText acc (escapeChar c ++ cs) = readText (c :: acc) cs := by
  unfold escapeChar
  split
  any_goals rfl
  rename_i hquote hbackslash _ _ _ _ _
  split
  · next hc =>
    have hread := readText_control (n := c.toNat) hc acc cs
    rw [Char.ofNat_toNat] at hread
    exact hread
  · next hc => exact readText_of_ne hquote hbackslash hc acc cs

theorem readText_flatMap_escapeChar (acc s cs : List Char) :
    readText acc (s.flatMap escapeChar ++ '"' :: cs) = .ok (acc.reverse ++ s, cs) := by
  induction s generalizing acc with
  | nil =>
    rw [List.flatMap_nil, List.nil_append, List.append_nil]
    rfl
  | cons c s ih =>
    rw [List.flatMap_cons, List.append_assoc, readText_escapeChar, ih, List.reverse_cons,
      List.append_assoc]
    rfl

/-- Text that is written with its quotes reads back behind the first of them. -/
theorem readText_textChars (s : String) (cs : List Char) :
    ∃ rest, textChars s ++ cs = '"' :: rest ∧ readText [] rest = .ok (s.toList, cs) := by
  refine ⟨s.toList.flatMap escapeChar ++ '"' :: cs, ?_, readText_flatMap_escapeChar [] _ cs⟩
  rw [textChars, List.cons_append, List.cons_append, List.append_assoc]
  rfl

end TileWorld.Json
