import Abacus.Report

namespace Abacus

structure Catalogue.Entry where
  name : String
  text : String
  isOperator : Bool
  deriving DecidableEq, Repr

structure Catalogue where
  title : String
  entries : List Catalogue.Entry

namespace Catalogue

def kinds : Catalogue where
  title   := "TokenType"
  entries := Kind.all.map fun k => ⟨k.name, k.text, k.isOperator⟩

def codes : Catalogue where
  title   := "ErrorCode"
  entries := Code.all.map fun c => ⟨c.name, c.text, false⟩

def find (c : Catalogue) (text : String) : Except String Entry :=
  match c.entries.find? (·.text = text) with
  | some e => .ok e
  | none   => .error (Text.quoted text ++ " is not a valid " ++ c.title)

end Catalogue

end Abacus
