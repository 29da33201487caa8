import Abacus.Feed
import Abacus.Log

namespace Abacus

structure Tape where
  cursor : Cursor
  spent : List Bool
  deriving DecidableEq, Repr

namespace Tape

def ofText (s : String) : Tape where
  cursor := .start s.toList
  spent  := []

def pull (t : Tape) : Reading × Tape :=
  let (r, c) := t.cursor.read
  (r, { t with cursor := c })

def fork (t : Tape) : Tape :=
  { t with spent := t.spent ++ [false] }

def next (t : Tape) (k : Nat) : Option Reading × Tape :=
  match t.spent[k]? with
  | some false =>
    let (r, t) := t.pull
    (some r, { t with spent := t.spent.set k (ends r) })
  | _ => (none, t)
where
  ends : Reading → Bool
    | .lexeme _         => false
    | .eof | .fault _ => true

end Tape

end Abacus
