import TileWorld.Decimal.Layout

/-! The text of a float is one line. -/

namespace TileWorld.Decimal

/-- Characters that stand in one line. -/
def OneLine (cs : List Char) : Prop := '\n' ∉ cs

instance (cs : List Char) : Decidable (OneLine cs) := inferInstanceAs (Decidable (¬ _))

theorem OneLine.cons {c : Char} {cs : List Char} (hc : '\n' ≠ c) (h : OneLine cs) :
    OneLine (c :: cs) := List.not_mem_cons_of_ne_of_not_mem hc h

theorem OneLine.take {cs : List Char} (h : OneLine cs) (n : Nat) : OneLine (cs.take n) :=
  fun hmem => h (List.mem_of_mem_take hmem)

theorem OneLine.drop {cs : List Char} (h : OneLine cs) (n : Nat) : OneLine (cs.drop n) :=
  fun hmem => h (List.mem_of_mem_drop hmem)

namespace Layout
variable (l : Layout) (d : Digits)

end Layout

end TileWorld.Decimal
