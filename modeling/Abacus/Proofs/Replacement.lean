import Abacus.Proofs.Limit
import Abacus.Proofs.Restart

namespace Abacus

def Feed.append : Feed → (more : Feed) → Feed
  | lexeme l d next, more => lexeme l d (next.append more)
  | eof _, more           => more
  | fault f d, _          => fault f d

theorem Feed.readings_append (feed more : Feed) :
    (feed.append more).readings =
      feed.lexemes.map .lexeme ++ feed.fault?.elim more.readings ([.fault ·]) := by
  induction feed
  case lexeme l _ _ hi => exact congrArg (.lexeme l :: ·) hi
  case eof | fault     => rfl

namespace Evaluation

variable {left left' : Left} {n n' : Nat} {v : Int} {R : Fault → Fault → Prop} {f g : Feed}

theorem operator_outcome (hc : left.close n = .ok (v, es)) (hc' : left'.close n' = .ok (v, es'))
    (h : f.Akin R g) : Abacus.Akin R (operator left n f).outcome (operator left' n' g).outcome := by
  cases f <;> cases g <;> cases h <;> cases ‹Reading.Akin ..›
  case lexeme l _ _ _ _ h =>
    rw [operator, operator, hc, hc']
    cases l
    case integer    => exact .error Error.ofMisplaced_not_lexical
    case operator o => exact Feed.Akin.evaluation h |>.left (.waiting v o) _ _ |>.outcome
  case eof =>
    rw [operator, operator, hc, hc']
    exact .value
  case fault h => exact .fault h

end Evaluation

theorem Evaluates.append {left : Left} {feed : Feed} {v : Int} (r : Evaluates left current feed e)
    (h : e.outcome = .ok v) (more : Feed) :
    ∃ left' n es, left'.close n = .ok (v, es) ∧
      (Evaluation.operand left current (feed.append more)).outcome =
        (Evaluation.operator left' n more).outcome := by
  induction r
  case value hc =>
    cases h
    exact ⟨_, _, _, hc, rfl⟩
  case round hc _ hi =>
    have ⟨left', n, es, hc', ho⟩ := hi h
    refine ⟨left', n, es, hc', ?_⟩
    rw [←ho, Feed.append, Evaluation.operand, Feed.append, Evaluation.operator, hc]
    rfl
  all_goals cases h

theorem evaluate_continued {sw : Switches} {u w : String} {v : Int}
    (hu : ∀ x ∈ u.toList, Cursor.isTerminator x = false) (hw : Undigited w.toList)
    (hv : (evaluate sw u).outcome = .ok v) :
    ∃ left n es, left.close n = .ok (v, es) ∧
      (evaluate sw (u ++ w)).outcome =
        (Evaluation.operator left n ((Cursor.start w.toList).shift u.length).feed).outcome := by
  rw [evaluate_outcome] at hv
  let more := ((Cursor.start w.toList).shift u.length).feed
  have ⟨left, n, es, hc, ho⟩ := Evaluation.evaluates .nothing none _ |>.append hv more
  have hr : (Feed.ofText (u ++ w)).readings = ((Feed.ofText u).append more).readings := by
    rw [Feed.readings_append, Feed.ofText, String.toList_append, Cursor.start_append,
      Cursor.readings_joined _ hu fun _ => hw, Cursor.behind_start, Feed.ofText]
  refine ⟨left, n, es, hc, ?_⟩
  rw [evaluate_outcome, ←ho]
  exact Feed.alike hr .nothing none |>.outcome

theorem Fault.shift_comm (f : Fault) (i j : Nat) : (f.shift i).shift j = (f.shift j).shift i := by
  cases f <;> simp [shift, Nat.add_right_comm]

theorem evaluate_interchange {sw : Switches} {s t w : String} {v : Int}
    (hs : ∀ x ∈ s.toList, Cursor.isTerminator x = false)
    (ht : ∀ x ∈ t.toList, Cursor.isTerminator x = false)
    (hw : Undigited w.toList) (hvs : (evaluate sw s).outcome = .ok v)
    (hvt : (evaluate sw t).outcome = .ok v) :
    Akin (fun f g => f.shift t.length = g.shift s.length) (evaluate sw (s ++ w)).outcome
      (evaluate sw (t ++ w)).outcome := by
  have ⟨_, _, _, hc, h⟩ := evaluate_continued hs hw hvs
  have ⟨_, _, _, hc', h'⟩ := evaluate_continued ht hw hvt
  rw [h, h']
  exact Evaluation.operator_outcome hc hc' <| Cursor.feed_akin (·.shift_comm _ _) _

-- The text that stands for a value. There are no signs, and so a negative value is taken from zero.
def standIn (v : Int) : String :=
  if 0 ≤ v then Numeral.decimal v else "0-" ++ Numeral.decimal (-v)

theorem standIn_natural (n : Nat) : (standIn n).toList = canonical [.integer n] := by
  simp [standIn, canonical, Lexeme.written]

theorem standIn_negative (n : Nat) :
    (standIn (Int.negSucc n)).toList =
      canonical [.integer 0, .operator .minus, .integer (n + 1)] := by
  simp [standIn, canonical, Lexeme.written]
  rfl

theorem standIn_layout {v : Int} (h : Numeral.Writable v) :
    ∃ ls, Layout ls (standIn v).toList ∧ Left.nothing.Takes ls v := by
  cases v
  case ofNat n =>
    refine ⟨[.integer n], ?_, Left.takes_last.mpr .nothing⟩
    have hw : ∀ l ∈ [Lexeme.integer n], l.Writable := by simpa using h
    exact standIn_natural n ▸ layout_canonical hw
  case negSucc n =>
    have hz : Numeral.Writable (0 : Nat) := Nat.zero_lt_of_lt h
    have hn : Numeral.Writable (n + 1 : Nat) := h
    have hy : Operator.minus.Yields 0 (n + 1) (.negSucc n) := by
      have := Operator.Yields.minus (l := 0) (n := n + 1)
      rwa [Int.zero_sub] at this
    have hw : ∀ l ∈ alternation 0 [(.minus, n + 1)], l.Writable := by
      simpa [alternation, operations] using ⟨hz, hn⟩
    refine ⟨alternation 0 [(.minus, n + 1)], ?_, 0, _, _, rfl, .nothing, .cons hy h .nil⟩
    exact standIn_negative n ▸ layout_canonical hw

-- Before a text that does not begin with a digit, any text of a value can be replaced by the one
-- that stands for the value. The outcome is the same, and a fault is found as much further on as the
-- first text is longer.
theorem evaluate_replaced (sw : Switches) (u w : String) (v : Int)
    (hu : '\n' ∉ u.toList ∧ '\r' ∉ u.toList) (hv : (evaluate sw u).outcome = .ok v)
    (hw : ¬∃ x ∈ w.toList.head?, x.isDigit) :
    Akin (fun f g => f.shift (standIn v).length = g.shift u.length) (evaluate sw (u ++ w)).outcome
      (evaluate sw (standIn v ++ w)).outcome := by
  have ⟨ls, hl, ht⟩ := standIn_layout (evaluate_writable hv)
  have ⟨hr, hf⟩ := hl.feed_start
  have hs : (evaluate sw (standIn v)).outcome = .ok v := evaluate_takes.mpr ⟨hf, hr.symm ▸ ht⟩
  have hw : Undigited w.toList := by simpa [Undigited] using hw
  exact evaluate_interchange (Cursor.start_unbroken hu) hl.not_terminator hw hv hs

theorem evaluate_replaced_negative :
    ('\n' ∉ " 1 - 3".toList ∧ '\r' ∉ " 1 - 3".toList) ∧
      (evaluate .off " 1 - 3").outcome = .ok (-2) ∧
      (¬∃ x ∈ " * 5 + x".toList.head?, x.isDigit) ∧
      Akin (fun f g => f.shift 3 = g.shift 6) (evaluate .off (" 1 - 3" ++ " * 5 + x")).outcome
        (evaluate .off ("0-2" ++ " * 5 + x")).outcome := by
  have hu : '\n' ∉ " 1 - 3".toList ∧ '\r' ∉ " 1 - 3".toList := by decide
  have hv : (evaluate .off " 1 - 3").outcome = .ok (-2) := by decide +kernel
  have hw : ¬∃ x ∈ " * 5 + x".toList.head?, x.isDigit := by simp
  exact ⟨hu, hv, hw, evaluate_replaced .off " 1 - 3" " * 5 + x" (-2) hu hv hw⟩

end Abacus
