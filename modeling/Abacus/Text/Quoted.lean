import Abacus.Text.Printable

namespace Abacus.Text.Quoted

def quote (s : List Char) : Char :=
  if '\'' ∈ s ∧ '"' ∉ s then '"' else '\''

def hex : (width : Nat) → (n : Nat) → List Char
  | 0, _ => []
  | width + 1, n => hex width (n / 16) ++ [Nat.digitChar (n % 16)]

def codePoint (c : Char) : List Char :=
  if c.toNat < 0x100 then '\\' :: 'x' :: hex 2 c.toNat
  else if c.toNat < 0x10000 then '\\' :: 'u' :: hex 4 c.toNat
  else '\\' :: 'U' :: hex 8 c.toNat

def escape (q c : Char) : List Char :=
  if c = q ∨ c = '\\' then ['\\', c]
  else if c = '\n' then ['\\', 'n']
  else if c = '\r' then ['\\', 'r']
  else if c = '\t' then ['\\', 't']
  else if isPrintable c then [c]
  else codePoint c

def encode (s : List Char) : List Char :=
  quote s :: s.flatMap (escape (quote s)) ++ [quote s]

theorem hex_length (width n : Nat) : (hex width n).length = width := by
  induction width generalizing n <;> simp_all [hex]

end Abacus.Text.Quoted

namespace Abacus.Text

def quoted (s : String) : String :=
  String.ofList (Quoted.encode s.toList)

end Abacus.Text
