import Abacus.Proofs.Logs

namespace Abacus

def Lexeme.operator? : Lexeme → Option Operator
  | integer _  => none
  | operator o => some o

-- `Derives l ls steps v rest` reads: from `l` on the steps reduce what `ls` begins with. Each takes
-- up the value of the one before, and they come to `v`. The lexemes `rest` are left.
inductive Derives : Int → List Lexeme → List Step → Int → List Lexeme → Prop
  | nil : Derives v ls [] v ls
  | cons (h : o.Yields l n w) (hd : Derives w ls steps v rest) :
      Derives l (.operator o :: .integer n :: ls) (⟨l, o, n, w⟩ :: steps) v rest

theorem Derives.operators {l v : Int} {ls rest : List Lexeme} {steps : List Step}
    (h : Derives l ls steps v rest) :
    ls.filterMap Lexeme.operator? =
      steps.map Step.operator ++ rest.filterMap Lexeme.operator? := by
  induction h
  case nil        => rfl
  case cons hi => simp [Lexeme.operator?, List.filterMap_cons, hi]

inductive Left.Derives : Left → List Lexeme → List Step → Option Int → List Lexeme → Prop
  | nothing (h : ∀ n tl, ls ≠ .integer n :: tl) : Derives .nothing ls [] none ls
  | first {n : Nat} (h : Abacus.Derives n ls steps v rest) :
      Derives .nothing (.integer n :: ls) steps (some v) rest
  | waiting (h : Abacus.Derives l (.operator o :: ls) steps v rest) :
      Derives (.waiting l o) ls steps (some v) rest

inductive Ends : Option Int → List Lexeme → Except Error Int → Prop
  | value : Ends (some v) [] (.ok v)
  | reduction (h : o.Fails l n err) :
      Ends (some l) (.operator o :: .integer n :: more) (.error err)
  | fault : Ends v rest (.error (.lexical f))
  | misplaced : Ends v rest (.error (.misplaced .unexpectedToken (some t)))

namespace Left.Derives

variable {left : Left} {n : Nat} {v w : Int} {ls rest : List Lexeme} {steps : List Step}

theorem stop {r : Except Error Int} (left : Left) (h : ∀ n tl, ls ≠ .integer n :: tl)
    (hr : ∀ v rest, Ends v rest r) : ∃ v rest, left.Derives ls [] v rest ∧ Ends v rest r := by
  cases left
  case nothing => exact ⟨_, _, .nothing h, hr _ _⟩
  case waiting => exact ⟨_, _, .waiting .nil, hr _ _⟩

theorem close (hl : left.Writable) (hn : Numeral.Writable n) (hc : left.close n = .ok (w, es))
    (h : Abacus.Derives w ls steps v rest) :
    left.Derives (.integer n :: ls) (es.filterMap Event.step? ++ steps) (some v) rest := by
  cases left
  case nothing => cases hc; exact .first h
  case waiting =>
    cases closes_iff hl hn |>.mpr ⟨_, hc⟩
    case waiting hv hy =>
      rw [close_events hc]
      exact .waiting <| .cons hy h

theorem last (ls : List Lexeme) (hl : left.Writable) (hn : Numeral.Writable n)
    (hc : left.close n = .ok (w, es)) :
    left.Derives (.integer n :: ls) (es.filterMap Event.step?) (some w) ls := by
  have := close hl hn hc (.nil : Abacus.Derives w ls [] w ls)
  rwa [List.append_nil] at this

theorem of_error {err : Error} (hl : left.Writable) (hn : Numeral.Writable n)
    (hc : left.close n = .error err) :
    ∃ v rest, left.Derives (.integer n :: ls) [] v rest ∧ Ends v rest (.error err) := by
  cases left
  case nothing => cases hc
  case waiting =>
    exact ⟨_, _, .waiting .nil, .reduction <| Operator.fails_iff hl hn |>.mpr hc⟩

end Left.Derives

theorem Evaluates.derives {left : Left} {feed : Feed} (r : Evaluates left current feed e)
    (hl : left.Writable) (hf : feed.Limited) :
    ∃ v rest, left.Derives feed.lexemes e.steps v rest ∧ Ends v rest e.outcome := by
  induction r <;> simp at hf
  case eof left _ _ =>
    rw [Evaluation.refuse_outcome Event.writable_eof]
    exact Left.Derives.stop left nofun fun _ _ => .misplaced
  case operator left _ _ _ _ =>
    rw [Evaluation.refuse_outcome Event.writable_operator]
    exact Left.Derives.stop left nofun fun _ _ => .misplaced
  case fault left _ _ _ => exact Left.Derives.stop left nofun fun _ _ => .fault
  case operandFault left _ n _ _ _ =>
    cases left
    case nothing => exact ⟨_, _, .first .nil, .fault⟩
    case waiting => exact ⟨_, _, .waiting .nil, .fault⟩
  case failedEof h => exact Left.Derives.of_error hl hf h
  case failed h    => exact Left.Derives.of_error hl hf.left h
  case value h     =>
    have hd := Left.Derives.last [] hl hf h
    exact ⟨_, _, hd, .value⟩
  case operand m _ next _ _ h =>
    rw [Evaluation.refuse_outcome <| Event.writable_integer.mpr hf.right.left]
    have hd := Left.Derives.last (.integer m :: next.lexemes) hl hf.left h
    exact ⟨_, _, hd, .misplaced⟩
  case round h _ hi =>
    have ⟨_, _, hd, he⟩ := hi (Left.close_writable hl hf.left h).left hf.right
    cases hd
    case waiting hd =>
      have := Left.Derives.close hl hf.left h hd
      exact ⟨_, _, by simpa [Evaluation.steps, List.filterMap_cons, Feed.lexemes] using this, he⟩

theorem Feed.derives (line : String) :
    ∃ v rest,
      Left.nothing.Derives (Feed.ofText line).lexemes
        (Evaluation.ofFeed none (.ofText line)).steps v rest ∧
      Ends v rest (Evaluation.ofFeed none (.ofText line)).outcome :=
  Evaluation.evaluates .nothing none _ |>.derives trivial (Cursor.feed_limited _)

theorem Left.Derives.of_nothing {v : Option Int} {ls rest : List Lexeme} {steps : List Step}
    (h : Left.nothing.Derives ls steps v rest) :
    (steps = [] ∧ (∀ n tl, ls ≠ .integer n :: tl) ∧ v = none) ∨
      ∃ (n : Nat) (tl : _) (w : Int), ls = .integer n :: tl ∧ v = some w ∧
        Abacus.Derives n tl steps w rest := by
  cases h
  case nothing h => exact .inl ⟨rfl, h, rfl⟩
  case first h   => exact .inr ⟨_, _, _, rfl, rfl, h⟩

theorem evaluate_printed_steps (line : String) :
    (evaluate .stepsOnly line).printed =
      Text.ofLines ((Evaluation.ofFeed none (.ofText line)).steps.map Step.written) := by
  rw [evaluate_printed, ←log_eq, log_stepsOnly]

-- Alone in the log, the reductions derive the value of a line from its first integer. If the line
-- has a value, they use up its operators. If a reduction fails, they come to what stands to its left.
theorem printed_steps_derive (line : String) :
    ∃ steps : List Step,
      (evaluate .stepsOnly line).printed =
        Text.ofLines (steps.map fun s =>
          Numeral.decimal s.left ++ " " ++ s.operator.sign.toString ++ " " ++
            Numeral.decimal s.right ++ " = " ++ Numeral.decimal s.value) ∧
      ((steps = [] ∧ (∀ n tl, (Feed.ofText line).lexemes ≠ .integer n :: tl) ∧
        ((∃ f, (evaluate .stepsOnly line).outcome = .error (.lexical f)) ∨
          ∃ t, (evaluate .stepsOnly line).outcome =
            .error (.misplaced .unexpectedToken (some t)))) ∨
      ∃ (n : Nat) (ls : List Lexeme) (v : Int) (rest : List Lexeme),
        (Feed.ofText line).lexemes = .integer n :: ls ∧ Derives n ls steps v rest ∧
        (∀ w, (evaluate .stepsOnly line).outcome = .ok w → w = v ∧ rest = [] ∧
          (Feed.ofText line).lexemes.filterMap Lexeme.operator? = steps.map Step.operator) ∧
        (∀ sign l, (evaluate .stepsOnly line).outcome = .error (.divisionByZero sign l) →
          (∃ more, rest = .operator .divide :: .integer 0 :: more) ∧
          ∃ r, (Error.divisionByZero sign l).report? = some r ∧
            r.message = some ("Division by zero: " ++ Numeral.decimal v ++ " / 0")) ∧
        ((evaluate .stepsOnly line).outcome = .error .digitLimit →
          ∃ o m more w, rest = .operator o :: .integer m :: more ∧ o.Yields v m w ∧
            ¬Numeral.Writable w)) := by
  have ⟨v, rest, h, he⟩ := Feed.derives line
  rw [evaluate_outcome]
  refine ⟨_, evaluate_printed_steps line, ?_⟩
  generalize (Evaluation.ofFeed none (Feed.ofText line)).outcome = r at he ⊢
  obtain ⟨hs, hl, hv⟩ | ⟨n, tl, w, hl, hv, hd⟩ := h.of_nothing <;> subst hv
  case inl =>
    refine .inl ⟨hs, hl, ?_⟩
    cases he
    case fault f     => exact .inl ⟨f, rfl⟩
    case misplaced t => exact .inr ⟨t, rfl⟩
  case inr =>
    refine .inr ⟨n, tl, w, rest, hl, hd, ?_, ?_, ?_⟩
    case refine_1 =>
      intro u hu
      subst hu
      cases he
      have := hd.operators
      exact ⟨rfl, rfl, by simpa [hl, Lexeme.operator?, List.filterMap_cons] using this⟩
    case refine_2 =>
      intro sign l hr
      subst hr
      cases he
      case reduction more hf =>
        cases hf
        exact ⟨⟨more, rfl⟩, _, rfl, congrArg Report.message <| Report.division_eq _ _⟩
    case refine_3 =>
      intro hr
      subst hr
      cases he
      case reduction o m more hf =>
        cases hf
        case limit w hw hy => exact ⟨o, m, more, w, rfl, hy, hw⟩

end Abacus
