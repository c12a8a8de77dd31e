/-!
A machine with words of 64 bits. A program is stopped, without a result, where a product is no word
or a block of storage too long to be addressed; `none` stands for that. Storage that can be
addressed is taken to be there.
-/

namespace TileWorld.Machine

/-- A product of two words. -/
def product? (a b : UInt64) : Option UInt64 :=
  if a.toNat * b.toNat < UInt64.size then some (a * b) else none

/-- A block of storage for `n` items of `size` bytes each. Its length is a word with a sign. -/
def reserve? (size n : Nat) : Option Unit :=
  if size * n < Nat.pow 2 63 then some () else none

end TileWorld.Machine
