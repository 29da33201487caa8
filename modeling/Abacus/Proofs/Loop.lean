import Abacus.Proofs.Evaluates

namespace Abacus

-- Where an integer is turned into text: in the detail of a fault, for the log, in the complaint
-- about a token or about a division by zero, or in the text of a reduction.
inductive Site
  | position
  | log
  | complaint
  | dividend
  | divisor
  | left
  | right
  | value
  deriving DecidableEq, Repr

structure Writing where
  site : Site
  subject : Value
  deriving DecidableEq, Repr

def Fault.writings : Fault → List Writing
  | character _ column    => [⟨.position, .integer column⟩]
  | literal digits column => [⟨.position, .integer digits⟩, ⟨.position, .integer column⟩]

structure Trace (α) where
  heads : List Int
  writings : List Writing
  outcome : Except Error α

namespace Trace

def done (a : α) : Trace α :=
  ⟨[], [], .ok a⟩

def fail (e : Error) : Trace α :=
  ⟨[], [], .error e⟩

def write (site : Site) (x : Value) (next : Trace α) : Trace α :=
  if x.Writable then
    { next with writings := ⟨site, x⟩ :: next.writings }
  else
    ⟨[], [⟨site, x⟩], .error .digitLimit⟩

def atHead (v : Int) (p : Trace α) : Trace α :=
  { p with heads := v :: p.heads }

def before (p : Trace α) (q : Trace β) : Trace β :=
  ⟨p.heads ++ q.heads, p.writings ++ q.writings, q.outcome⟩

def andThen (p : Trace α) (f : α → Trace β) : Trace β :=
  match p.outcome with
  | .ok a    => p.before (f a)
  | .error e => p.before (.fail e)

end Trace

structure View where
  ahead : Option Lexeme
  cursor : Cursor

namespace View

def token (s : View) : Token :=
  s.ahead.elim .eof Lexeme.token

def log (sw : Switches) (s : View) : Trace View :=
  if sw.tokens then .write .log s.token.value (.done s) else .done s

def next (sw : Switches) (c : Cursor) : Trace View :=
  match c.read with
  | (.lexeme l, d) => log sw ⟨some l, d⟩
  | (.eof, d)      => log sw ⟨none, d⟩
  | (.fault f, _)  => ⟨[], f.writings, .error (.lexical f)⟩

def complain (s : View) : Trace α :=
  .write .complaint s.token.value <| .fail (.misplaced .unexpectedToken (some s.token))

def operand (sw : Switches) (s : View) : Trace (Nat × View) :=
  match s.ahead with
  | some (.integer n) => (next sw s.cursor).andThen fun s => .done (n, s)
  | _                 => s.complain

-- The text of a reduction is written in any case, and logged only if the switches say so.
def reduce (v : Int) (o : Operator) (n : Nat) : Trace Int :=
  if o = .divide ∧ n = 0 then
    .write .dividend (.integer v) <| .write .divisor (.integer n) <|
      .fail (.divisionByZero (.operator o) v)
  else
    .write .left (.integer v) <| .write .right (.integer n) <|
      .write .value (.integer (o.exact v n)) <| .done (o.exact v n)

def round (sw : Switches) (v : Int) (o : Operator) (s : View) : Trace (Int × View) :=
  (next sw s.cursor).andThen fun s =>
  (operand sw s).andThen fun (n, s) =>
  (reduce v o n).andThen fun w => .done (w, s)

def leave (v : Int) (s : View) : Trace Int :=
  if s.ahead = none then .done v else s.complain

end View

@[simp]
theorem Value.writable_integer {v : Int} : (integer v).Writable ↔ Numeral.Writable v :=
  .rfl

namespace Trace

variable {p : Trace α} {f : α → Trace β} {site : Site} {x : Value} {a : α} {b : β} {v : Int}

@[simp]
theorem atHead_outcome : (p.atHead v).outcome = p.outcome :=
  rfl

@[simp]
theorem write_outcome :
    (write site x p).outcome = if x.Writable then p.outcome else .error .digitLimit := by
  by_cases h : x.Writable <;> simp [write, h]

@[simp]
theorem andThen_outcome : (p.andThen f).outcome = p.outcome.bind fun a => (f a).outcome := by
  rw [andThen]
  cases p.outcome <;> rfl

theorem andThen_eq_ok : (p.andThen f).outcome = .ok b ↔
    ∃ a, p.outcome = .ok a ∧ (f a).outcome = .ok b := by
  rw [andThen_outcome]
  cases p.outcome <;> simp [Except.bind]

end Trace

theorem Reads.length_le (h : Reads c r d) : d.rest.length ≤ c.rest.length := by
  cases h <;> simp_all <;> omega

namespace View

variable {sw : Switches} {c : Cursor} {s t : View} {v w : Int} {o : Operator} {n : Nat}

theorem log_eq_ok (h : (log sw s).outcome = .ok t) : t = s := by
  rw [log] at h
  split at h
  case isFalse => cases h; rfl
  case isTrue  =>
    rw [Trace.write_outcome] at h
    split at h <;> cases h
    rfl

theorem next_eq_ok (h : (next sw c).outcome = .ok s) :
    ∃ r, Reads c r s.cursor ∧ ∀ l, s.ahead = some l → r = .lexeme l := by
  have ⟨r, d, hr⟩ := Reads.exists_reads c
  rw [next, hr.read_eq] at h
  cases r
  case lexeme =>
    cases log_eq_ok h
    exact ⟨_, hr, fun _ h => by cases h; rfl⟩
  case eof =>
    cases log_eq_ok h
    exact ⟨_, hr, nofun⟩
  case fault => cases h

theorem round_length_lt (h : (round sw v o s).outcome = .ok (w, t)) :
    t.cursor.rest.length < s.cursor.rest.length := by
  have ⟨s₁, h₁, h⟩ := Trace.andThen_eq_ok.mp h
  have ⟨⟨n, s₂⟩, h₂, h⟩ := Trace.andThen_eq_ok.mp h
  have ⟨_, _, h⟩ := Trace.andThen_eq_ok.mp h
  cases h
  have ⟨r, hr, hl⟩ := next_eq_ok h₁
  rw [operand] at h₂
  split at h₂
  case h_1 ha =>
    have ⟨_, h₂, h⟩ := Trace.andThen_eq_ok.mp h₂
    cases h
    have ⟨_, hr', _⟩ := next_eq_ok h₂
    cases hl _ ha
    exact Nat.lt_of_le_of_lt hr'.length_le <| Cursor.length_read_lt hr.read_eq
  case h_2 =>
    rw [complain, Trace.write_outcome] at h₂
    split at h₂ <;> cases h₂

def loop (sw : Switches) (v : Int) (s : View) : Trace Int :=
  match s.ahead with
  | some (.operator o) =>
    match _h : (round sw v o s).outcome with
    | .ok (w, t) => ((round sw v o s).before (loop sw w t)).atHead v
    | .error e   => ((round sw v o s).before (.fail e)).atHead v
  | _ => (leave v s).atHead v
termination_by s.cursor.rest.length
decreasing_by exact round_length_lt _h

theorem loop_operator (h : s.ahead = some (.operator o)) :
    loop sw v s = ((round sw v o s).andThen fun (w, t) => loop sw w t).atHead v := by
  rw [loop, h]
  simp only
  split
  case h_1 hr => simp [Trace.andThen, hr]
  case h_2 hr => simp [Trace.andThen, hr]

theorem loop_leave (h : ∀ o, s.ahead ≠ some (.operator o)) :
    loop sw v s = (leave v s).atHead v := by
  rw [loop]
  split
  case h_1 o ho => exact absurd ho (h o)
  case h_2      => rfl

end View

def Cursor.run (sw : Switches) (c : Cursor) : Trace Int :=
  (View.next sw c).andThen fun s =>
  (View.operand sw s).andThen fun (n, s) => View.loop sw n s

namespace View

variable {sw : Switches} {c d : Cursor} {s : View} {v : Int} {o : Operator} {n : Nat}

theorem log_outcome (h : s.token.value.Writable) : (log sw s).outcome = .ok s := by
  rw [log]
  split
  case isTrue  => rw [Trace.write_outcome, if_pos h]; rfl
  case isFalse => rfl

theorem next_lexeme {l : Lexeme} (h : Reads c (.lexeme l) d) :
    (next sw c).outcome = .ok ⟨some l, d⟩ := by
  rw [next, h.read_eq]
  exact log_outcome <| Event.writable_lexeme.mpr h.writable

theorem next_eof (h : Reads c .eof d) : (next sw c).outcome = .ok ⟨none, d⟩ := by
  rw [next, h.read_eq]
  exact log_outcome trivial

theorem next_fault (h : Reads c (.fault f) d) : (next sw c).outcome = .error (.lexical f) := by
  rw [next, h.read_eq]

theorem complain_outcome :
    (s.complain (α := α)).outcome = .error (.ofMisplaced .unexpectedToken (some s.token)) := by
  rw [complain, Trace.write_outcome, Error.ofMisplaced]
  split <;> rfl

theorem reduce_outcome (hv : Numeral.Writable v) (hn : Numeral.Writable n) :
    (reduce v o n).outcome = ((Left.waiting v o).close n).map Prod.fst := by
  rw [Left.close_waiting hv hn, reduce]
  split
  case isTrue => simp [hv, hn, Trace.fail, Except.map]
  case isFalse =>
    simp [hv, hn, Trace.done]
    split <;> rfl

def close : Left → (n : Nat) → Trace Int
  | .nothing, n     => .done n
  | .waiting v o, n => reduce v o n

theorem close_outcome {left : Left} (hl : left.Writable) (hn : Numeral.Writable n) :
    (close left n).outcome = (left.close n).map Prod.fst := by
  cases left
  case nothing => rfl
  case waiting => exact reduce_outcome hl hn

theorem round_andThen {f : Int × View → Trace Int} :
    ((round sw v o s).andThen f).outcome =
      ((next sw s.cursor).andThen fun s => (operand sw s).andThen fun (n, s) =>
        (reduce v o n).andThen fun w => f (w, s)).outcome := by
  simp only [round, Trace.andThen_outcome]
  cases (next sw s.cursor).outcome
  case error => rfl
  case ok t =>
    simp only [Except.bind]
    cases (operand sw t).outcome
    case error => rfl
    case ok r =>
      simp only
      cases (reduce v o r.1).outcome <;> rfl

theorem outcome_eq (sw : Switches) (c : Cursor) :
    (∀ left current, left.Writable →
      ((next sw c).andThen fun s => (operand sw s).andThen fun (n, s) =>
        (close left n).andThen fun w => loop sw w s).outcome =
      (Evaluation.operand left current c.feed).outcome) ∧
    (∀ left (n : Nat), left.Writable → Numeral.Writable n →
      ((next sw c).andThen fun s => (close left n).andThen fun w => loop sw w s).outcome =
      (Evaluation.operator left n c.feed).outcome) := by
  -- An operand is followed by an operator and that by an operand, so that each half needs the other.
  induction c using Cursor.feed_induction
  case lexeme l d hr hf hi =>
    rw [hf]
    constructor
    case left =>
      intro left current hl
      cases l
      case integer n =>
        have := hi.right left n hl hr.writable
        simp [next_lexeme hr, operand, Except.bind, Evaluation.operand, ←this]
        cases (next sw d).outcome <;> rfl
      case operator o =>
        simp [next_lexeme hr, operand, complain_outcome, Except.bind]
        rfl
    case right =>
      intro left n hl hn
      simp [next_lexeme hr, close_outcome hl hn, Except.bind, Evaluation.operator]
      cases hc : left.close n
      case error => rfl
      case ok r =>
        have hv := Left.close_writable hl hn hc
        cases l
        case integer m =>
          simp [Except.map, loop_leave, leave, complain_outcome]
          rfl
        case operator o =>
          have := hi.left (.waiting r.1 o) (some (.operator o)) hv.left
          simp only [Except.map, Evaluation.before_outcome, Lexeme.token, ←this]
          rw [loop_operator rfl]
          exact round_andThen
  case eof d hr hf =>
    rw [hf]
    constructor
    case left =>
      intro left current hl
      simp [next_eof hr, operand, complain_outcome, Except.bind]
      rfl
    case right =>
      intro left n hl hn
      simp [next_eof hr, close_outcome hl hn, Except.bind, Evaluation.operator]
      cases hc : left.close n
      case error => rfl
      case ok    => simp [Except.map, loop_leave, leave]; rfl
  case fault f d hr hf =>
    rw [hf]
    constructor
    case left =>
      intro left current hl
      simp [next_fault hr, Except.bind, Evaluation.operand]
    case right =>
      intro left n hl hn
      simp [next_fault hr, Except.bind, Evaluation.operator]

end View

theorem Cursor.run_outcome (sw : Switches) (c : Calculator) :
    (c.cursor.run sw).outcome = (c.expression.answer sw).outcome := by
  have hw := Evaluation.evaluates .nothing c.current c.cursor.feed |>.events_writable trivial
    c.cursor.feed_limited
  exact (View.outcome_eq sw c.cursor).left .nothing c.current trivial |>.trans
    (Switches.print_outcome hw).symm

end Abacus
