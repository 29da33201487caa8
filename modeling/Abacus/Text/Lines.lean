namespace Abacus.Text.Lines

-- The lines of a text, without the `'\n'` that ends each of them. Characters after the last one
-- make a line as well; nothing after it makes none.
def split : List Char → List (List Char)
  | [] => []
  | c :: cs =>
    if c = '\n' then [] :: split cs
    else match split cs with
      | [] => [[c]]
      | line :: lines => (c :: line) :: lines

def unify : List Char → List Char
  | [] => []
  | '\r' :: '\n' :: cs => '\n' :: unify cs
  | c :: cs => (if c = '\r' then '\n' else c) :: unify cs

end Abacus.Text.Lines

namespace Abacus.Text

def typedLines (s : String) : List String :=
  (Lines.split s.toList).map String.ofList

def fileLines (s : String) : List String :=
  (Lines.split (Lines.unify s.toList)).map String.ofList

end Abacus.Text
