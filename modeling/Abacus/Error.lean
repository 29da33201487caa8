import Abacus.Report

namespace Abacus

inductive Fault
  | character (c : Char) (column : Nat)
  | literal (digits column : Nat)
  deriving DecidableEq, Repr

namespace Fault

def detail : Fault → String
  | character c column =>
    "unexpected " ++ Text.quoted c.toString ++ " at column " ++ Numeral.decimal column
  | literal digits column =>
    "integer literal of " ++ Numeral.decimal digits ++ " digits at column " ++ Numeral.decimal column

def shift (n : Nat) : Fault → Fault
  | character c column    => character c (column + n)
  | literal digits column => literal digits (column + n)

end Fault

inductive Error
  | lexical (f : Fault)
  | misplaced (code : Code) (token : Option Token)
  | divisionByZero (sign : Token) (left : Int)
  | digitLimit
  | noToken
  deriving DecidableEq, Repr

namespace Error

def report? : Error → Option Report
  | lexical f                => some (.malformed f.detail)
  | misplaced code token     => some (.misplaced code token)
  | divisionByZero sign left => some (.division sign left)
  | digitLimit | noToken     => none

-- The complaint about a token has the token's text in it, which may be refused.
def ofMisplaced (code : Code) : Option Token → Error
  | none   => misplaced code none
  | some t => if t.value.Writable then misplaced code (some t) else digitLimit

def ofDivision (sign : Token) (left : Int) : Error :=
  if Numeral.Writable left then divisionByZero sign left else digitLimit

end Error

end Abacus
