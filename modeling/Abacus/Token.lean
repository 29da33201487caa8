import Abacus.Numeral
import Abacus.Operator
import Abacus.Text.Quoted

namespace Abacus

inductive Kind
  | operator (o : Operator)
  | integer
  | eof
  deriving DecidableEq, Repr

namespace Kind

def all : List Kind :=
  Operator.all.map operator ++ [integer, eof]

def name : Kind → String
  | operator o => o.name
  | integer    => "INTEGER"
  | eof        => "EOF"

def text : Kind → String
  | operator o => o.sign.toString
  | integer    => "INTEGER"
  | eof        => "EOF"

def isOperator : Kind → Bool
  | operator _ => true
  | _          => false

theorem mem_all (k : Kind) : k ∈ all := by
  rcases k with o | _ | _
  · simp [all, Operator.mem_all]
  all_goals simp [all]

end Kind

inductive Value
  | none
  | integer (v : Int)
  | text (s : String)
  deriving DecidableEq, Repr

namespace Value

def written : Value → String
  | none      => "None"
  | integer v => Numeral.decimal v
  | text s    => Text.quoted s

def Writable : Value → Prop
  | integer v => Numeral.Writable v
  | _         => True

instance : (x : Value) → Decidable x.Writable
  | integer v => inferInstanceAs (Decidable (Numeral.Writable v))
  | none      => isTrue trivial
  | text _    => isTrue trivial

end Value

structure Token where
  kind : Kind
  value : Value
  deriving DecidableEq, Repr

namespace Token

def eof : Token where
  kind  := .eof
  value := .none

def integer (n : Nat) : Token where
  kind  := .integer
  value := .integer n

def operator (o : Operator) : Token where
  kind  := .operator o
  value := .text o.sign.toString

def written (t : Token) : String :=
  "Token(" ++ t.kind.name ++ ", " ++ t.value.written ++ ")"

def text? (t : Token) : Option String :=
  if t.value.Writable then some t.written else none

def represented? (t : Token) : Option String :=
  t.text?

end Token

end Abacus
