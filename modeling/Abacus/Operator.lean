namespace Abacus

inductive Operator
  | plus
  | minus
  | times
  | divide
  deriving DecidableEq, Repr

namespace Operator

def all : List Operator :=
  [plus, minus, times, divide]

def sign : Operator → Char
  | plus   => '+'
  | minus  => '-'
  | times  => '*'
  | divide => '/'

def name : Operator → String
  | plus   => "PLUS"
  | minus  => "MINUS"
  | times  => "MUL"
  | divide => "DIV"

def ofSign? : Char → Option Operator
  | '+' => some plus
  | '-' => some minus
  | '*' => some times
  | '/' => some divide
  | _   => none

-- The exact value of `l o r`. Division rounds to the floor; what it is at zero is never asked.
def exact (o : Operator) (l r : Int) : Int :=
  match o with
  | plus   => l + r
  | minus  => l - r
  | times  => l * r
  | divide => l.fdiv r

theorem mem_all (o : Operator) : o ∈ all := by
  cases o <;> simp [all]

@[simp]
theorem ofSign?_sign (o : Operator) : ofSign? o.sign = some o := by
  cases o <;> rfl

theorem ofSign?_eq_some {c : Char} {o : Operator} : ofSign? c = some o ↔ c = o.sign where
  mp h  := by unfold ofSign? at h; split at h <;> cases h <;> rfl
  mpr h := h ▸ ofSign?_sign o

theorem sign_not_isDigit (o : Operator) : o.sign.isDigit = false := by
  cases o <;> decide

end Operator

end Abacus
