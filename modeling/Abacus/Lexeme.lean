import Abacus.Error

namespace Abacus

inductive Lexeme
  | integer (n : Nat)
  | operator (o : Operator)
  deriving DecidableEq, Repr

def Lexeme.token : Lexeme → Token
  | integer n  => .integer n
  | operator o => .operator o

theorem Lexeme.token_ne_eof (l : Lexeme) : l.token ≠ .eof := by
  cases l <;> simp [token, Token.integer, Token.operator, Token.eof]

theorem Lexeme.token_inj {l m : Lexeme} : l.token = m.token ↔ l = m := by
  cases l <;> cases m <;> grind [token, Token.integer, Token.operator]

inductive Reading
  | lexeme (l : Lexeme)
  | eof
  | fault (f : Fault)
  deriving DecidableEq, Repr

namespace Reading

def token : Reading → Except Error Token
  | lexeme l => .ok l.token
  | eof      => .ok .eof
  | fault f  => .error (.lexical f)

def shift (n : Nat) : Reading → Reading
  | fault f => fault (f.shift n)
  | r       => r

end Reading

end Abacus
