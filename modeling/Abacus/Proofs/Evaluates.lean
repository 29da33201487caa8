import Abacus.Calculator
import Abacus.Proofs.Reads

namespace Abacus

namespace Event

@[simp]
theorem writable_lexeme : {l : Lexeme} → (token l.token).Writable ↔ l.Writable
  | .integer _ | .operator _ => .rfl

@[simp]
theorem writable_integer {n : Nat} : (token (.integer n)).Writable ↔ Numeral.Writable n :=
  .rfl

@[simp]
theorem writable_operator {o : Operator} : (token (.operator o)).Writable :=
  trivial

@[simp]
theorem writable_eof : (token .eof).Writable :=
  trivial

def token? : Event → Option Token
  | token t => some t
  | step _  => none

def step? : Event → Option Step
  | token _ => none
  | step s  => some s

@[simp]
theorem token?_token {t : Token} : (token t).token? = some t :=
  rfl

@[simp]
theorem token?_step {s : Step} : (step s).token? = none :=
  rfl

@[simp]
theorem step?_token {t : Token} : (token t).step? = none :=
  rfl

@[simp]
theorem step?_step {s : Step} : (step s).step? = some s :=
  rfl

end Event

namespace Left

def Writable : Left → Prop
  | nothing     => True
  | waiting v _ => Numeral.Writable v

variable {left : Left} {n : Nat}

theorem close_waiting {v : Int} {o : Operator} (hv : Numeral.Writable v) (hn : Numeral.Writable n) :
    (waiting v o).close n =
      if o = .divide ∧ n = 0 then .error (.divisionByZero (.operator o) v)
      else if Numeral.Writable (o.exact v n) then .ok (o.exact v n, [.step ⟨v, o, n, o.exact v n⟩])
      else .error .digitLimit := by
  by_cases hz : o = .divide ∧ n = 0
  · simp [close, Operator.apply, hz, Error.ofDivision, hv]
  · simp [close, Operator.apply, hz, Step.Writable, hv, hn]

theorem close_writable {v : Int} {es : List Event} (hl : left.Writable) (hn : Numeral.Writable n)
    (h : left.close n = .ok (v, es)) : Numeral.Writable v ∧ ∀ e ∈ es, e.Writable := by
  cases left
  case nothing =>
    cases h
    exact ⟨hn, nofun⟩
  case waiting u o =>
    replace hl : Numeral.Writable u := hl
    rw [close_waiting hl hn] at h
    split at h <;> try split at h
    case isFalse.isTrue hw =>
      cases h
      simpa [Event.Writable, Step.Writable, hl, hn] using hw
    all_goals cases h

theorem close_events {v : Int} (h : left.close n = .ok (v, es)) :
    es = match left with
      | nothing     => []
      | waiting u o => [.step ⟨u, o, n, v⟩] := by
  cases left
  case nothing => cases h; rfl
  case waiting =>
    simp only [close] at h
    split at h
    case h_1 => cases h
    case h_2 =>
      obtain ⟨-, h⟩ := ite_eq_iff.mp h |>.resolve_right (by simp)
      cases h
      rfl

theorem close_tokens {v : Int} (h : left.close n = .ok (v, es)) : es.filterMap Event.token? = [] := by
  cases left <;> simp [close_events h]

end Left

-- `Evaluates left current feed e` reads: with an operand due behind `left`, the feed leads to `e`.
inductive Evaluates : Left → Option Token → Feed → Evaluation → Prop
  | eof : Evaluates left current (.eof d) (.refuse .eof [.token .eof] d)
  | operator :
      Evaluates left current (.lexeme (.operator o) d next)
        (.refuse (.operator o) [.token (.operator o)] d)
  | fault : Evaluates left current (.fault f d) ⟨[], .error (.lexical f), d, current⟩
  | operandFault :
      Evaluates left current (.lexeme (.integer n) c (.fault f d))
        ⟨[.token (.integer n)], .error (.lexical f), d, some (.integer n)⟩
  -- The reduction fails only after one more token was read.
  | failedEof (h : left.close n = .error err) :
      Evaluates left current (.lexeme (.integer n) c (.eof d))
        ⟨[.token (.integer n), .token .eof], .error err, d, some .eof⟩
  | failed (h : left.close n = .error err) :
      Evaluates left current (.lexeme (.integer n) c (.lexeme l d next))
        ⟨[.token (.integer n), .token l.token], .error err, d, some l.token⟩
  | value (h : left.close n = .ok (v, es)) :
      Evaluates left current (.lexeme (.integer n) c (.eof d))
        ⟨.token (.integer n) :: .token .eof :: es, .ok v, d, some .eof⟩
  | operand (h : left.close n = .ok (v, es)) :
      Evaluates left current (.lexeme (.integer n) c (.lexeme (.integer m) d next))
        (.refuse (.integer m) (.token (.integer n) :: .token (.integer m) :: es) d)
  | round (h : left.close n = .ok (v, es))
      (r : Evaluates (.waiting v o) (some (.operator o)) next e) :
      Evaluates left current (.lexeme (.integer n) c (.lexeme (.operator o) d next))
        (e.before (.token (.integer n) :: .token (.operator o) :: es))

namespace Evaluation

def tokens (e : Evaluation) : List Token :=
  e.events.filterMap Event.token?

def steps (e : Evaluation) : List Step :=
  e.events.filterMap Event.step?

@[simp]
theorem tokens_mk : tokens ⟨es, r, d, t⟩ = es.filterMap Event.token? :=
  rfl

@[simp]
theorem tokens_before {e : Evaluation} :
    (e.before es).tokens = es.filterMap Event.token? ++ e.tokens := by
  simp [tokens]

end Evaluation

theorem Evaluation.refuse_outcome {t : Token} {es : List Event} {d : Cursor}
    (h : (Event.token t).Writable) :
    (refuse t es d).outcome = .error (.misplaced .unexpectedToken (some t)) :=
  congrArg Except.error <| if_pos h

theorem Evaluation.evaluates (left : Left) (current : Option Token) :
    (feed : Feed) → Evaluates left current feed (operand left current feed)
  | .eof _                                  => .eof
  | .fault _ _                              => .fault
  | .lexeme (.operator _) _ _               => .operator
  | .lexeme (.integer _) _ (.fault _ _)     => .operandFault
  | .lexeme (.integer n) _ (.eof _)         => by
    rw [operand, operator]
    cases h : left.close n
    case error => exact .failedEof h
    case ok    => exact .value h
  | .lexeme (.integer n) _ (.lexeme l _ next) => by
    rw [operand, operator]
    cases h : left.close n
    case error => exact .failed h
    case ok r  =>
      cases l
      case integer    => exact .operand h
      case operator o => exact .round h <| evaluates (.waiting r.1 o) _ next

namespace Feed

def Limited (feed : Feed) : Prop :=
  ∀ l ∈ feed.lexemes, l.Writable

@[simp]
theorem limited_eof : (eof d).Limited :=
  nofun

@[simp]
theorem limited_fault : (fault f d).Limited :=
  nofun

@[simp]
theorem limited_lexeme : (lexeme l d next).Limited ↔ l.Writable ∧ next.Limited := by
  simp [Limited, lexemes]

end Feed

theorem Cursor.feed_limited (c : Cursor) : c.feed.Limited := by
  induction c using Cursor.feed_induction
  case eof hf            => simp [hf]
  case fault hf          => simp [hf]
  case lexeme hr hf hi => simp [hf, hr.writable, hi]

theorem Evaluates.events_writable {left : Left} {feed : Feed} (r : Evaluates left current feed e)
    (hl : left.Writable) (hf : feed.Limited) : ∀ ev ∈ e.events, ev.Writable := by
  induction r <;> simp at hf
  case value h =>
    have ⟨_, he⟩ := Left.close_writable hl hf h
    simpa [hf] using he
  case operand h =>
    have ⟨_, he⟩ := Left.close_writable hl hf.left h
    simpa [Evaluation.refuse, hf] using he
  case round h _ hi =>
    have ⟨hv, he⟩ := Left.close_writable hl hf.left h
    have := hi hv hf.right
    simp [hf.left]
    exact fun ev hm => hm.elim (he ev) (this ev)
  all_goals simp [Evaluation.refuse, hf]

theorem evaluate_outcome (sw : Switches) (line : String) :
    (evaluate sw line).outcome = (Evaluation.ofFeed none (.ofText line)).outcome :=
  Switches.print_outcome <|
    Evaluation.evaluates .nothing none _ |>.events_writable trivial (Cursor.feed_limited _)

theorem evaluate_off_printed (line : String) : (evaluate .off line).printed = "" := by
  rw [evaluate, Evaluation.answer, Switches.print_off]

end Abacus
