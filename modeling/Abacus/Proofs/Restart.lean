import Abacus.Proofs.Joined
import Abacus.Proofs.Progress

namespace Abacus

theorem Akin.faults_eq {R : Fault → Fault → Prop} {r r' : Except Error α} :
    (Akin R r r') → faults r = faults r'
  | value | error _ | fault _ => rfl

theorem Evaluates.current_eq {left : Left} {feed : Feed} (r : Evaluates left current feed e) :
    e.current = e.tokens.getLast?.or current := by
  induction r
  case value h        => simp [Left.close_tokens h]
  case operand h      => simp [Evaluation.refuse, Left.close_tokens h]
  case round h _ hi =>
    simp only [Evaluation.tokens_before, List.filterMap_cons, Event.token?_token,
      Left.close_tokens h, List.getLast?_append, Option.or_assoc]
    exact hi
  all_goals rfl

namespace Calculator

theorem evaluate_eq (sw : Switches) (line : String) :
    evaluate sw line = (ofText line).expression.answer sw :=
  rfl

theorem expression_reaches (c : Calculator) : c.cursor.Reaches c.expression.after.cursor :=
  Evaluation.evaluates .nothing c.current c.cursor.feed |>.reaches

theorem expression_current (c : Calculator) :
    c.expression.after.current = c.expression.tokens.getLast?.or c.current :=
  Evaluation.evaluates .nothing c.current c.cursor.feed |>.current_eq

theorem expression_shift (c : Cursor) (k : Nat) (current current' : Option Token) :
    let u := (mk (c.shift k) current).expression
    let u' := (mk c current').expression
    u.events = u'.events ∧ Akin (fun f g => f = g.shift k) u.outcome u'.outcome ∧
      u.after.cursor = u'.after.cursor.shift k := by
  intro u u'
  have hf : (c.shift k).feed.Akin (fun f g => f = g.shift k) (c.shift 0).feed :=
    c.feed_akin fun f => by cases f <;> rfl
  have ⟨he, ho⟩ := hf.evaluation.left .nothing current current'
  have ht : u.tokens = u'.tokens := congrArg (List.filterMap Event.token?) he
  have hr : u.reads = u'.reads := congrArg₂ (· + ·) (congrArg List.length ht) ho.faults_eq
  have ⟨i, _, hi, _, hc⟩ := expression_reads ⟨c.shift k, current⟩
  have ⟨j, _, hj, _, hc'⟩ := expression_reads ⟨c, current'⟩
  have hij : i = j := Nat.succ.inj <| hi.symm.trans <| hr.trans hj
  refine ⟨he, ho, ?_⟩
  calc u.after.cursor
    _ = ((c.shift k).nth i).2   := hc
    _ = (c.nth i).2.shift k     := congrArg Prod.snd (c.nth_shift k i)
    _ = u'.after.cursor.shift k := congrArg _ (hij ▸ hc'.symm)

end Calculator

-- An expression is worth what the text is worth that is left of it, and logs the same, whatever the
-- current token is and wherever the cursor is, in the text or behind it. Faults are found further
-- on by as many columns as stand before the cursor, and so is the place where reading stops. The
-- token that was current is so afterwards only if no other one was read.
theorem expression_anywhere (sw : Switches) (text : String) (p : Nat) (current : Option Token) :
    let rest := String.ofList (text.toList.drop p)
    let fresh := (Calculator.ofText rest).expression
    let u := (Calculator.mk (.seek text.toList p) current).expression
    fresh.answer sw = evaluate sw rest ∧
    (u.answer sw).Akin (fun f g => f = g.shift p) (evaluate sw rest) ∧
    u.after.cursor = .seek text.toList (p + fresh.after.cursor.pos) ∧
    u.after.current = fresh.after.current.or current := by
  intro rest fresh u
  have hc : Cursor.seek text.toList p = (Cursor.start rest.toList).shift p := by
    rw [String.toList_ofList, Cursor.seek_eq_shift]
  have hu : u = (Calculator.mk ((Cursor.start rest.toList).shift p) current).expression :=
    congrArg (fun c => (Calculator.mk c current).expression) hc
  have ⟨he, ho, hd⟩ := Calculator.expression_shift (.start rest.toList) p current none
  rw [←hu] at he ho hd
  refine ⟨rfl, ?_, ?_, ?_⟩
  case refine_1 =>
    rw [Calculator.evaluate_eq, Calculator.Use.answer, he]
    exact ho.print sw _
  case refine_2 =>
    have hr := Calculator.expression_reaches ⟨.seek text.toList p, current⟩
    have hp : u.after.cursor.pos = p + fresh.after.cursor.pos :=
      congrArg Cursor.pos hd |>.trans <| Nat.add_comm _ p
    exact hp ▸ hr.eq_seek
  case refine_3 =>
    have ht : u.tokens = fresh.tokens := congrArg (List.filterMap Event.token?) he
    have hf : fresh.after.current = fresh.tokens.getLast?.or none := Calculator.expression_current _
    have hu : u.after.current = u.tokens.getLast?.or current := Calculator.expression_current _
    rw [hu, hf, ht, Option.or_none]

end Abacus
