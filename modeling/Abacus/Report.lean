import Abacus.Token

namespace Abacus

inductive Code
  | malformed
  | unexpectedToken
  | divisionByZero
  deriving DecidableEq, Repr

namespace Code

def all : List Code :=
  [malformed, unexpectedToken, divisionByZero]

def name : Code → String
  | malformed       => "SYNTAX_ERROR"
  | unexpectedToken => "UNEXPECTED_TOKEN"
  | divisionByZero  => "DIVISION_BY_ZERO"

def text : Code → String
  | malformed       => "Syntax Error"
  | unexpectedToken => "Error parsing input"
  | divisionByZero  => "Division by zero"

end Code

inductive Category
  | general
  | lexical
  | parse
  | division
  deriving DecidableEq, Repr

namespace Category

def all : List Category :=
  [general, lexical, parse, division]

def name : Category → String
  | general  => "Error"
  | lexical  => "LexError"
  | parse    => "ParseError"
  | division => "DivisionByZeroError"

def includes (c d : Category) : Bool :=
  c = general || c = d

end Category

structure Report where
  category : Category
  code : Option Code
  token : Option Token
  message : Option String
  deriving DecidableEq, Repr

namespace Report

def text (r : Report) : String :=
  r.message.getD "None"

def display (r : Report) : String :=
  r.category.name ++ ": " ++ r.text

def categories (r : Report) : List Category :=
  Category.all.filter (·.includes r.category)

-- A line that is no sequence of tokens. An empty detail is left out.
def malformed (detail : Option String) : Report where
  category := .lexical
  code     := some .malformed
  token    := none
  message  := some <| match detail with
    | none | some "" => Code.malformed.text
    | some detail    => Code.malformed.text ++ " (" ++ detail ++ ")"

def misplaced (code : Code) (token : Option Token) : Report where
  category := .parse
  code     := some code
  token    := token
  message  := some (code.text ++ " -> " ++ token.elim "None" Token.written)

def division (sign : Token) (left : Int) : Report where
  category := .division
  code     := some .divisionByZero
  token    := some sign
  message  := some <|
    Code.divisionByZero.text ++ ": " ++ Numeral.decimal left ++ " / " ++ Numeral.decimal 0

theorem malformed_some {detail : String} (h : detail ≠ "") :
    malformed (some detail) =
      ⟨.lexical, some .malformed, none, some ("Syntax Error (" ++ detail ++ ")")⟩ := by
  have hs : "Syntax Error (" = Code.malformed.text ++ " (" := rfl
  rw [hs, malformed]
  exact h

theorem misplaced_unexpectedToken (t : Token) :
    misplaced .unexpectedToken (some t) =
      ⟨.parse, some .unexpectedToken, some t, some ("Error parsing input -> " ++ t.written)⟩ := by
  have hs : "Error parsing input -> " = Code.unexpectedToken.text ++ " -> " := rfl
  rw [hs]
  rfl

theorem division_eq (sign : Token) (left : Int) :
    division sign left = ⟨.division, some .divisionByZero, some sign,
      some ("Division by zero: " ++ Numeral.decimal left ++ " / 0")⟩ := by
  have hs : "Division by zero: " = Code.divisionByZero.text ++ ": " := rfl
  have hz : " / 0" = " / " ++ Numeral.decimal 0 := rfl
  rw [hs, hz, ←String.append_assoc]
  rfl

end Report

end Abacus
