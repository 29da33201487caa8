import Abacus.Evaluation

namespace Abacus

structure Calculator where
  cursor : Cursor
  current : Option Token
  deriving DecidableEq, Repr

namespace Calculator

structure Use (α) where
  events : List Event
  outcome : Except Error α
  after : Calculator

def ofText (s : String) : Calculator where
  cursor  := .start s.toList
  current := none

-- The next token becomes the current one. If there is a fault, the token stays and the cursor
-- moves.
def load (c : Calculator) : Use Unit :=
  let (r, d) := c.cursor.read
  match r.token with
  | .ok t    => ⟨r.events, .ok (), ⟨d, some t⟩⟩
  | .error e => ⟨r.events, .error e, { c with cursor := d }⟩

def expect (k : Kind) (c : Calculator) : Use Unit :=
  match c.current with
  | none   => ⟨[], .error .noToken, c⟩
  | some t =>
    if t.kind = k then c.load
    else ⟨[], .error (.ofMisplaced .unexpectedToken (some t)), c⟩

def operand (c : Calculator) : Use Value :=
  let u := c.expect .integer
  { u with outcome := u.outcome.map fun _ => c.current.elim .none Token.value }

def expression (c : Calculator) : Use Int :=
  let e := Evaluation.ofFeed c.current c.cursor.feed
  ⟨e.events, e.outcome, ⟨e.cursor, e.current⟩⟩

def advance (c : Calculator) : Calculator :=
  { c with cursor := c.cursor.advance }

def apply (left : Int) (sign : Token) (right : Int) : Except Error (Option Int) :=
  match sign.kind with
  | .operator o     => (o.apply sign left right).map some
  | .integer | .eof => .ok none

def Use.answer (u : Use α) (sw : Switches) : Answer α :=
  sw.print u.outcome u.events

end Calculator

end Abacus
