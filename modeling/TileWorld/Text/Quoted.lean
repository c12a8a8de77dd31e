import TileWorld.Text.Hidden

/-!
Text in quotes, as error messages show it. Within the quotes the quote itself, the backslash and
characters that would not be seen are escaped.
-/

namespace TileWorld.Text

/-- A character as it stands between two quotes `quote`. -/
def escape (quote c : Char) : List Char :=
  if c = '\x00' then ['\\', '0']
  else if c = '\t' then ['\\', 't']
  else if c = '\n' then ['\\', 'n']
  else if c = '\r' then ['\\', 'r']
  else if c = '\\' || c = quote then ['\\', c]
  else if isHidden c then ['\\', 'u', '\x7b'] ++ Nat.toDigits 16 c.toNat ++ ['\x7d']
  else [c]

def quotedChar (c : Char) : String :=
  String.ofList ('\'' :: escape '\'' c ++ ['\''])

def quoted (s : String) : String :=
  String.ofList ('"' :: s.toList.flatMap (escape '"') ++ ['"'])

example : quotedChar '\'' = "'\\''" ∧ quoted "it's \x01" = "\"it's \\u\x7b1\x7d\"" := by
  decide +kernel

end TileWorld.Text
