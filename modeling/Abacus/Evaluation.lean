import Abacus.Feed
import Abacus.Log

namespace Abacus

def Operator.apply (o : Operator) (sign : Token) (left right : Int) : Except Error Int :=
  if o = .divide ∧ right = 0 then .error (.ofDivision sign left) else .ok (o.exact left right)

inductive Left
  | nothing
  | waiting (v : Int) (o : Operator)
  deriving DecidableEq, Repr

-- The value as far as the operand `n`, and the reduction that gave it. A reduction whose text
-- cannot be written fails, whether or not it is logged.
def Left.close : Left → (n : Nat) → Except Error (Int × List Event)
  | nothing, n => .ok (n, [])
  | waiting v o, n =>
    match o.apply (.operator o) v n with
    | .error e => .error e
    | .ok w    =>
      let step : Step := ⟨v, o, n, w⟩
      if step.Writable then .ok (w, [.step step]) else .error .digitLimit

structure Evaluation where
  events : List Event
  outcome : Except Error Int
  cursor : Cursor
  current : Option Token

namespace Evaluation

def before (es : List Event) (e : Evaluation) : Evaluation :=
  { e with events := es ++ e.events }

@[simp]
theorem before_events (es : List Event) (e : Evaluation) : (e.before es).events = es ++ e.events :=
  rfl

@[simp]
theorem before_outcome (es : List Event) (e : Evaluation) : (e.before es).outcome = e.outcome :=
  rfl

def refuse (t : Token) (events : List Event) (after : Cursor) : Evaluation where
  events  := events
  outcome := .error (.ofMisplaced .unexpectedToken (some t))
  cursor  := after
  current := some t

mutual

def operand (left : Left) (current : Option Token) : Feed → Evaluation
  | .lexeme (.integer n) _ next   => (operator left n next).before [.token (.integer n)]
  | .lexeme (.operator o) after _ => refuse (.operator o) [.token (.operator o)] after
  | .eof after                    => refuse .eof [.token .eof] after
  | .fault f after                => ⟨[], .error (.lexical f), after, current⟩

-- The operand `n` was read, and an operator or the end is due. It is looked at before `n` is used.
def operator (left : Left) (n : Nat) : Feed → Evaluation
  | .lexeme l after next =>
    match left.close n with
    | .error e         => ⟨[.token l.token], .error e, after, some l.token⟩
    | .ok (v, reduced) =>
      match l with
      | .integer _  => refuse l.token (.token l.token :: reduced) after
      | .operator o => (operand (.waiting v o) (some l.token) next).before (.token l.token :: reduced)
  | .eof after =>
    match left.close n with
    | .error e         => ⟨[.token .eof], .error e, after, some .eof⟩
    | .ok (v, reduced) => ⟨.token .eof :: reduced, .ok v, after, some .eof⟩
  | .fault f after => ⟨[], .error (.lexical f), after, some (.integer n)⟩

end

def ofFeed (current : Option Token) (feed : Feed) : Evaluation :=
  operand .nothing current feed

def answer (e : Evaluation) (sw : Switches) : Answer Int :=
  sw.print e.outcome e.events

end Evaluation

-- Each operator is applied to all that is to its left as soon as its right operand has been read and
-- one more token looked at. There is no precedence, and nothing is read behind the first error.
def evaluate (sw : Switches) (line : String) : Answer Int :=
  (Evaluation.ofFeed none (.ofText line)).answer sw

end Abacus
