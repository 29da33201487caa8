import Abacus.Proofs.Lines
import Abacus.Proofs.Offence
import Abacus.Proofs.Written

namespace Abacus

namespace Switches

def tokensOnly : Switches where
  tokens := true
  steps  := false

def stepsOnly : Switches where
  tokens := false
  steps  := true

def both : Switches where
  tokens := true
  steps  := true

@[simp]
theorem tokensOnly_shows : (e : Event) → tokensOnly.shows e = e.token?.isSome
  | .token _ | .step _ => rfl

@[simp]
theorem stepsOnly_shows : (e : Event) → stepsOnly.shows e = e.step?.isSome
  | .token _ | .step _ => rfl

@[simp]
theorem both_shows : (e : Event) → both.shows e = true
  | .token _ | .step _ => rfl

variable (es : List Event)

theorem filter_tokensOnly : es.filter tokensOnly.shows = (es.filterMap Event.token?).map .token := by
  induction es
  case nil => rfl
  case cons e es hi => cases e <;> simp [hi, List.filterMap_cons]

theorem filter_stepsOnly : es.filter stepsOnly.shows = (es.filterMap Event.step?).map .step := by
  induction es
  case nil => rfl
  case cons e es hi => cases e <;> simp [hi, List.filterMap_cons]

end Switches

def log (sw : Switches) (line : String) : List String :=
  Text.typedLines (evaluate sw line).printed

def isTokenLine (s : String) : Bool :=
  "Token(".toList.isPrefixOf s.toList

theorem Token.isTokenLine_written (t : Token) : isTokenLine t.written := by
  rw [isTokenLine, List.isPrefixOf_iff_prefix]
  simp [written]

theorem Step.isTokenLine_written (s : Step) : isTokenLine s.written = false := by
  have ⟨x, tl, hd, hx⟩ := Numeral.exists_cons_decimal s.left
  have hT : 'T' ≠ x := by
    intro hT
    subst hT
    exact hx.elim (absurd · (by decide)) (absurd · (by decide))
  simp [isTokenLine, written, hd, List.isPrefixOf, hT]

-- Rounds of two tokens and a reduction. Without anything on the left there is nothing to reduce in
-- the first of them, and the last one may break off before its reduction.
inductive Rounds : Left → List Event → Prop
  | broken (ts : List Token) (h : ts.length ≤ 2) : Rounds left (ts.map .token)
  | first (h : Rounds (.waiting v o) es) : Rounds .nothing (.token t :: .token u :: es)
  | next (h : Rounds (.waiting w p) es) :
      Rounds (.waiting v o) (.token t :: .token u :: .step s :: es)

theorem Left.close_rounds {left : Left} {n : Nat} {v : Int} (o : Operator) {t u : Token}
    (h : left.close n = .ok (v, es)) (hr : Rounds (.waiting v o) es') :
    Rounds left (.token t :: .token u :: (es ++ es')) := by
  rw [close_events h]
  cases left
  case nothing => exact .first hr
  case waiting => exact .next hr

theorem Evaluates.rounds {left : Left} {feed : Feed} (r : Evaluates left current feed e) :
    Rounds left e.events := by
  induction r
  case eof            => exact .broken [_] (by simp)
  case operator       => exact .broken [_] (by simp)
  case fault          => exact .broken [] (by simp)
  case operandFault   => exact .broken [_] (by simp)
  case failedEof      => exact .broken [_, _] (by simp)
  case failed         => exact .broken [_, _] (by simp)
  case value v es _ h => exact es.append_nil ▸ Left.close_rounds .plus h (.broken [] (by simp))
  case operand es _ h => exact es.append_nil ▸ Left.close_rounds .plus h (.broken [] (by simp))
  case round h _ hi   => exact Left.close_rounds _ h hi

def Left.lead : Left → Nat
  | nothing     => 2
  | waiting _ _ => 0

theorem Rounds.getElem? {left : Left} {k : Nat} {s : Step} (h : Rounds left es)
    (hk : (es.filterMap Event.step?)[k]? = some s) :
    es[3 * k + 2 + left.lead]? = some (.step s) ∧
      es[3 * k + 1 + left.lead]? =
        (es.filterMap Event.token?)[2 * k + 1 + left.lead]?.map .token := by
  induction h generalizing k
  case broken => simp [Function.comp_def] at hk
  case first hi => simpa [Left.lead, List.filterMap_cons] using hi hk
  case next hi =>
    cases k
    case zero =>
      cases hk
      exact ⟨rfl, rfl⟩
    case succ k => simpa [Left.lead, List.filterMap_cons, Nat.mul_succ] using hi (k := k) hk

theorem evaluate_printed (sw : Switches) (line : String) :
    (evaluate sw line).printed = Text.ofLines
      (((Evaluation.ofFeed none (.ofText line)).events.filter sw.shows).map Event.written) := by
  have hw := Evaluation.evaluates .nothing none (.ofText line) |>.events_writable trivial
    (Cursor.feed_limited _)
  have (e : Event) (he : e ∈ (Evaluation.ofFeed none (.ofText line)).events.filter sw.shows) :
      decide e.Writable := decide_eq_true <| hw e (List.mem_filter.mp he).left
  simp [evaluate, Evaluation.answer, Switches.print, List.takeWhile_eq_self_iff.mpr this,
    Text.ofLines, Function.comp_def]

theorem log_eq (sw : Switches) (line : String) :
    log sw line =
      ((Evaluation.ofFeed none (.ofText line)).events.filter sw.shows).map Event.written := by
  rw [log, evaluate_printed, Text.typedLines_ofLines]
  intro l hl
  have ⟨e, _, he⟩ := List.mem_map.mp hl
  exact he ▸ e.written_printable.newline_notMem

theorem ofLines_log (sw : Switches) (line : String) :
    Text.ofLines (log sw line) = (evaluate sw line).printed := by
  rw [log_eq, evaluate_printed]

section

variable (line : String)

theorem log_tokensOnly :
    log .tokensOnly line =
      (Evaluation.ofFeed none (.ofText line)).tokens.map Token.written := by
  rw [log_eq, Switches.filter_tokensOnly, List.map_map]
  rfl

theorem log_stepsOnly :
    log .stepsOnly line = (Evaluation.ofFeed none (.ofText line)).steps.map Step.written := by
  rw [log_eq, Switches.filter_stepsOnly, List.map_map]
  rfl

theorem log_both :
    log .both line = (Evaluation.ofFeed none (.ofText line)).events.map Event.written := by
  rw [log_eq, List.filter_eq_self.mpr fun e _ => Switches.both_shows e]

end

namespace Event

variable (es : List Event)

theorem filter_isTokenLine :
    (es.map written).filter isTokenLine = (es.filterMap token?).map Token.written := by
  induction es
  case nil => rfl
  case cons e es hi =>
    cases e <;> simp [hi, List.filterMap_cons, written, Token.isTokenLine_written,
      Step.isTokenLine_written]

theorem filter_not_isTokenLine :
    (es.map written).filter (!isTokenLine ·) = (es.filterMap step?).map Step.written := by
  induction es
  case nil => rfl
  case cons e es hi =>
    cases e <;> simp [hi, List.filterMap_cons, written, Token.isTokenLine_written,
      Step.isTokenLine_written]

end Event

theorem log_step {line : String} {k : Nat} (hk : k < (log .stepsOnly line).length) :
    (log .both line)[3 * k + 3]? = (log .tokensOnly line)[2 * k + 3]? ∧
      (log .both line)[3 * k + 4]? = (log .stepsOnly line)[k]? := by
  rw [log_stepsOnly, List.length_map] at hk
  have hr : Rounds .nothing (Evaluation.ofFeed none (.ofText line)).events :=
    Evaluation.evaluates .nothing none (.ofText line) |>.rounds
  have hs := List.getElem?_eq_getElem hk
  have ⟨h₁, h₂⟩ := hr.getElem? hs
  rw [log_both, log_tokensOnly, log_stepsOnly]
  simp only [List.getElem?_map]
  constructor
  case left  => rw [show 3 * k + 3 = 3 * k + 1 + Left.nothing.lead from rfl, h₂, Option.map_map]; rfl
  case right => rw [show 3 * k + 4 = 3 * k + 2 + Left.nothing.lead from rfl, h₁, hs]; rfl

theorem Feed.count_eof {feed : Feed} (h : feed.fault? = none) : feed.tokens.count .eof = 1 := by
  induction feed
  case lexeme l _ _ hi => simpa [tokens, List.count_cons, l.token_ne_eof] using hi h
  case eof   => rfl
  case fault => cases h

-- The switches decide what is logged, and nothing else. All tokens are logged that were read, which
-- are those of the whole line if it has a value, and else those as far as the first offence.
theorem evaluate_logs (line : String) :
    (∀ sw, (evaluate sw line).outcome = (evaluate .off line).outcome) ∧
    (evaluate .off line).printed = "" ∧
    (∀ sw, (evaluate sw line).printed = Text.ofLines (log sw line)) ∧
    (∀ v, (evaluate .off line).outcome = .ok v →
      log .tokensOnly line = (Feed.ofText line).tokens.map Token.written ∧
        (Feed.ofText line).tokens.count .eof = 1) ∧
    (∀ err, (evaluate .off line).outcome = .error err →
      ∃ i c, First (Feed.ofText line).readings i c err ∧
        log .tokensOnly line = ((Feed.ofText line).tokens.take (i + 1)).map Token.written ∧
        (Feed.ofText line).cursors[i]? = some (Evaluation.ofFeed none (.ofText line)).cursor) ∧
    (log .both line).filter isTokenLine = log .tokensOnly line ∧
    (log .both line).filter (!isTokenLine ·) = log .stepsOnly line ∧
    ∀ k < (log .stepsOnly line).length,
      (log .both line)[3 * k + 3]? = (log .tokensOnly line)[2 * k + 3]? ∧
        (log .both line)[3 * k + 4]? = (log .stepsOnly line)[k]? := by
  have hh := Feed.halts line
  have ho (sw : Switches) : (evaluate sw line).outcome = (evaluate .off line).outcome := by
    rw [evaluate_outcome, evaluate_outcome]
  refine ⟨ho, evaluate_off_printed line, fun sw => (ofLines_log sw line).symm, ?_, ?_, ?_, ?_,
    fun _ => log_step⟩
  case refine_1 =>
    intro v hv
    rw [evaluate_outcome] at hv
    have hf := Evaluation.evaluates .nothing none (.ofText line)
      |>.outcome_eq_ok_iff trivial (Cursor.feed_limited _) |>.mp hv |>.left
    cases hh
    case value ht _       => exact ⟨by rw [log_tokensOnly, ht], Feed.count_eof hf⟩
    case offence he _ _ _ => cases hv.symm.trans he
  case refine_2 =>
    intro err he
    rw [evaluate_outcome] at he
    cases hh
    case value hv _ _ _            => cases he.symm.trans hv
    case offence k c he' hf ht hc =>
      cases he.symm.trans he'
      rw [Nat.zero_add] at hf
      exact ⟨k, c, hf, by rw [log_tokensOnly, ht], hc⟩
  case refine_3 => rw [log_both, log_tokensOnly, Event.filter_isTokenLine]; rfl
  case refine_4 => rw [log_both, log_stepsOnly, Event.filter_not_isTokenLine]; rfl

end Abacus
