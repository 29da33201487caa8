import Abacus.Lexeme

namespace Abacus

structure Switches where
  tokens : Bool
  steps : Bool
  deriving DecidableEq, Repr

def Switches.off : Switches where
  tokens := false
  steps  := false

structure Step where
  left : Int
  operator : Operator
  right : Int
  value : Int
  deriving DecidableEq, Repr

namespace Step

def Writable (s : Step) : Prop :=
  Numeral.Writable s.left ∧ Numeral.Writable s.right ∧ Numeral.Writable s.value

instance (s : Step) : Decidable s.Writable :=
  inferInstanceAs (Decidable (_ ∧ _))

def written (s : Step) : String :=
  Numeral.decimal s.left ++ " " ++ s.operator.sign.toString ++ " " ++ Numeral.decimal s.right
    ++ " = " ++ Numeral.decimal s.value

end Step

inductive Event
  | token (t : Token)
  | step (s : Step)
  deriving DecidableEq, Repr

namespace Event

def written : Event → String
  | token t => t.written
  | step s  => s.written

def Writable : Event → Prop
  | token t => t.value.Writable
  | step s  => s.Writable

instance : (e : Event) → Decidable e.Writable
  | token t => inferInstanceAs (Decidable t.value.Writable)
  | step s  => inferInstanceAs (Decidable s.Writable)

end Event

def Switches.shows (sw : Switches) : Event → Bool
  | .token _ => sw.tokens
  | .step _  => sw.steps

structure Answer (α) where
  printed : String
  outcome : Except Error α

-- The events that are chosen are printed in order, a line each. The first of them that cannot be
-- written ends the calculation there and then.
def Switches.print (sw : Switches) (outcome : Except Error α) (events : List Event) : Answer α :=
  let chosen := events.filter sw.shows
  let lines  := (chosen.takeWhile fun e => e.Writable).map fun e => e.written ++ "\n"
  ⟨String.join lines, if ∀ e ∈ chosen, e.Writable then outcome else .error .digitLimit⟩

def Reading.events (r : Reading) : List Event :=
  match r.token with
  | .ok t    => [.token t]
  | .error _ => []

namespace Switches

@[simp]
theorem shows_off : (e : Event) → off.shows e = false
  | .token _ | .step _ => rfl

theorem print_off (outcome : Except Error α) (events : List Event) :
    off.print outcome events = ⟨"", outcome⟩ := by
  have h : events.filter off.shows = [] := by simp
  simp [print, h]

theorem print_outcome {sw : Switches} {outcome : Except Error α} {events : List Event}
    (h : ∀ e ∈ events, e.Writable) : (sw.print outcome events).outcome = outcome :=
  if_pos fun e he => h e (List.mem_filter.mp he |>.1)

end Switches

end Abacus
