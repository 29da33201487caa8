import Abacus.Proofs.Recovery
import Abacus.Proofs.Restart

namespace Abacus

namespace Calculator

def retry (use : Calculator → Use α) (c : Calculator) : Nat → Use α
  | 0     => use c
  | n + 1 => (use c).after.retry use n

-- How a use goes that passes a token of the kind `k` and gives `give` of it. First it depends on the
-- current token, and if that is passed, on what is read next.
structure Passes (k : Kind) (give : Token → α) (use : Calculator → Use α) (c : Calculator) :
    Prop where
  missing (ht : c.current = none) : use c = ⟨[], .error .noToken, c⟩
  misplaced (ht : c.current = some t) (hk : t.kind ≠ k) :
    use c = ⟨[], .error (if t.value.Writable then .misplaced .unexpectedToken (some t)
      else .digitLimit), c⟩
  fault (ht : c.current = some t) (hk : t.kind = k) (hr : c.cursor.read.1 = .fault f) :
    use c = ⟨[], .error (.lexical f), ⟨c.cursor.read.2, some t⟩⟩
  done (ht : c.current = some t) (hk : t.kind = k) (hr : c.cursor.read.1.token = .ok t') :
    use c = ⟨[.token t'], .ok (give t), ⟨c.cursor.read.2, some t'⟩⟩

structure Careful (k : Kind) (give : Token → α) (use : Calculator → Use α) (c : Calculator) : Prop
    extends Passes k give use c where
  only (h : (use c).outcome = .ok x) :
    ∃ t t', c.current = some t ∧ t.kind = k ∧ c.cursor.read.1.token = .ok t'
  -- The switches have no part in the outcome, and a failure logs nothing.
  seen (sw : Switches) : ((use c).answer sw).outcome = (use c).outcome
  silent (sw : Switches) (h : (use c).outcome = .error e) : ((use c).answer sw).printed = ""
  -- Only a literal that is too long has been passed when it is reported.
  again (h : (use c).outcome = .error e) (he : ∀ n column, e ≠ .lexical (.literal n column))
    (n : Nat) : (use c).after.retry use n = ⟨[], .error e, (use c).after⟩

section

variable {k : Kind} {give : Token → α} {use : Calculator → Use α} {c : Calculator}

theorem load_ok (hr : c.cursor.read.1.token = .ok t) :
    c.load = ⟨[.token t], .ok (), ⟨c.cursor.read.2, some t⟩⟩ := by
  simp only [load, hr, Reading.events]

theorem load_error (hr : c.cursor.read.1.token = .error e) :
    c.load = ⟨[], .error e, ⟨c.cursor.read.2, c.current⟩⟩ := by
  simp only [load, hr, Reading.events]

theorem expect_none (k : Kind) (ht : c.current = none) :
    c.expect k = ⟨[], .error .noToken, c⟩ := by
  rw [expect, ht]

theorem expect_some (k : Kind) (ht : c.current = some t) :
    c.expect k = if t.kind = k then c.load
      else ⟨[], .error (.ofMisplaced .unexpectedToken (some t)), c⟩ := by
  rw [expect, ht]

theorem expect_passes (k : Kind) (c : Calculator) : Passes k (fun _ => ()) (expect k) c where
  missing ht      := expect_none k ht
  misplaced ht hk := by rw [expect_some k ht, if_neg hk, Error.ofMisplaced]
  fault ht hk hr  := by rw [expect_some k ht, if_pos hk, load_error (congrArg _ hr), ht]
  done ht hk hr   := by rw [expect_some k ht, if_pos hk, load_ok hr]

theorem operand_passes (c : Calculator) : Passes .integer Token.value operand c where
  missing ht      := by rw [operand, c.expect_passes _ |>.missing ht]; rfl
  misplaced ht hk := by rw [operand, c.expect_passes _ |>.misplaced ht hk]; rfl
  fault ht hk hr  := by rw [operand, c.expect_passes _ |>.fault ht hk hr]; rfl
  done ht hk hr   := by rw [operand, c.expect_passes _ |>.done ht hk hr, ht]; rfl

theorem retry_eq (h : use c = u) (hc : u.after = c) (n : Nat) : c.retry use n = u := by
  induction n
  case zero    => exact h
  case succ hi => rw [retry, h, hc, hi]

namespace Passes

theorem done_or_fails (h : ∀ c, Passes k give use c) (c : Calculator) :
    (∃ t t', c.current = some t ∧ t.kind = k ∧ c.cursor.read.1.token = .ok t') ∨
      ∃ e d, use c = ⟨[], .error e, d⟩ ∧
        ((∃ n column, e = .lexical (.literal n column)) ∨ use d = ⟨[], .error e, d⟩) := by
  cases hc : c.current
  case none => exact .inr ⟨_, c, (h c).missing hc, .inr <| (h c).missing hc⟩
  case some t =>
    by_cases hk : t.kind = k
    case neg => exact .inr ⟨_, c, (h c).misplaced hc hk, .inr <| (h c).misplaced hc hk⟩
    case pos =>
      cases hr : c.cursor.read.1
      case lexeme => exact .inl ⟨t, _, rfl, hk, rfl⟩
      case eof    => exact .inl ⟨t, _, rfl, hk, rfl⟩
      case fault f =>
        refine .inr ⟨_, _, (h c).fault hc hk hr, ?_⟩
        cases f
        case literal n column => exact .inl ⟨n, column, rfl⟩
        case character =>
          -- Where the fault was found, there it is found again.
          have hd := hr ▸ Reads.of_read c.cursor |>.again trivial |>.read_eq
          have := (h ⟨c.cursor.read.2, some t⟩).fault rfl hk <| congrArg Prod.fst hd
          rw [hd] at this
          exact .inr this

theorem careful (h : ∀ c, Passes k give use c) (c : Calculator) : Careful k give use c := by
  obtain ⟨t, t', ht, hk, hr⟩ | ⟨e, d, hu, hd⟩ := done_or_fails h c
  case inl =>
    have hu := (h c).done ht hk hr
    refine ⟨h c, fun _ => ⟨t, t', ht, hk, hr⟩, fun sw => ?_, fun sw he => ?_, fun he _ _ => ?_⟩
    case refine_1 =>
      rw [hu]
      refine Switches.print_outcome fun ev hev => ?_
      cases List.mem_singleton.mp hev
      exact Reads.of_read c.cursor |>.token_writable hr
    all_goals cases hu ▸ he
  case inr =>
    refine ⟨h c, fun hx => ?_, fun sw => ?_, fun sw _ => ?_, fun he hl n => ?_⟩
    case refine_1 => cases hu ▸ hx
    case refine_2 => exact hu ▸ Switches.print_outcome nofun
    case refine_3 => exact hu ▸ rfl
    case refine_4 =>
      rw [hu] at he ⊢
      cases he
      exact retry_eq (hd.resolve_left fun ⟨n, column, hn⟩ => hl n column hn) rfl n

end Passes

end

inductive Operation
  | load
  | set (current : Option Token)
  | expect (k : Kind)
  | operand
  | expression
  | apply (left : Int) (sign : Token) (right : Int)
  | complain (code : Code) (token : Option Token)
  | advance
  deriving DecidableEq, Repr

def perform (c : Calculator) : Operation → Calculator
  | .load                        => c.load.after
  | .set t                       => { c with current := t }
  | .expect k                    => (c.expect k).after
  | .operand                     => c.operand.after
  | .expression                  => c.expression.after
  | .apply _ _ _ | .complain _ _ => c
  | .advance                     => c.advance

def performAll (c : Calculator) (ops : List Operation) : Calculator :=
  ops.foldl perform c

variable {c : Calculator} {text : List Char} {t : Token}

theorem expect_after (k : Kind) (c : Calculator) :
    (c.expect k).after = c ∨ (c.expect k).after = c.load.after := by
  cases ht : c.current
  case none => exact .inl <| congrArg Use.after <| expect_none k ht
  case some =>
    rw [expect_some k ht]
    split
    case isTrue  => exact .inr rfl
    case isFalse => exact .inl rfl

theorem load_cursor (c : Calculator) : c.load.after.cursor = c.cursor.read.2 := by
  cases hr : c.cursor.read.1.token
  case ok    => rw [load_ok hr]
  case error => rw [load_error hr]

theorem load_current (h : c.load.after.current = some t) :
    c.current = some t ∨ t.value.Writable := by
  cases hr : c.cursor.read.1.token
  case ok =>
    rw [load_ok hr] at h
    cases h
    exact .inr <| Reads.of_read c.cursor |>.token_writable hr
  case error =>
    rw [load_error hr] at h
    exact .inl h

theorem expression_tokens_writable (h : t ∈ c.expression.tokens) : t.value.Writable := by
  have ⟨e, he, ht⟩ := List.mem_filterMap.mp h
  have := Evaluation.evaluates .nothing c.current c.cursor.feed
    |>.events_writable trivial c.cursor.feed_limited e he
  cases e <;> cases ht
  exact this

theorem expression_writable (h : c.expression.after.current = some t) :
    c.current = some t ∨ t.value.Writable := by
  rw [expression_current, Option.or_eq_some_iff] at h
  obtain h | ⟨-, h⟩ := h
  case inl => exact .inr <| expression_tokens_writable <| List.mem_of_getLast? h
  case inr => exact .inl h

theorem perform_seek (h : c.cursor = .seek text c.cursor.pos) (op : Operation) :
    (c.perform op).cursor = .seek text (c.perform op).cursor.pos := by
  have hl := c.load_cursor ▸ (Reads.of_read c.cursor).reaches |>.eq_seek_of h
  have passed (k : Kind) : (c.expect k).after.cursor = .seek text (c.expect k).after.cursor.pos := by
    obtain hk | hk := c.expect_after k
    case inl => rw [hk]; exact h
    case inr => rw [hk]; exact hl
  cases op
  case load                   => exact hl
  case set | apply | complain => exact h
  case expect k               => exact passed k
  case operand                => exact passed .integer
  case expression             => exact c.expression_reaches.eq_seek_of h
  case advance                => exact congrArg Cursor.advance h |>.trans <| Cursor.advance_seek _ _

theorem perform_current {op : Operation} (h : (c.perform op).current = some t) :
    c.current = some t ∨ t.value.Writable ∨ op = .set (some t) := by
  have passed {k : Kind} (h : (c.expect k).after.current = some t) :
      c.current = some t ∨ t.value.Writable := by
    obtain hk | hk := c.expect_after k
    case inl => exact .inl <| hk ▸ h
    case inr => exact load_current <| hk ▸ h
  rw [←or_assoc]
  cases op
  case load                       => exact .inl <| load_current h
  case apply | complain | advance => exact .inl <| .inl h
  case expect | operand           => exact .inl <| passed h
  case expression                 => exact .inl <| expression_writable h
  case set =>
    cases h
    exact .inr rfl

theorem performAll_seek (h : c.cursor = .seek text c.cursor.pos) (ops : List Operation) :
    (c.performAll ops).cursor = .seek text (c.performAll ops).cursor.pos := by
  induction ops generalizing c
  case nil          => exact h
  case cons op _ hi => exact hi <| perform_seek h op

theorem performAll_current {ops : List Operation} (h : (c.performAll ops).current = some t) :
    c.current = some t ∨ t.value.Writable ∨ .set (some t) ∈ ops := by
  induction ops generalizing c
  case nil => exact .inl h
  case cons op ops hi =>
    obtain hc | hw | hs := hi h
    case inl =>
      exact perform_current hc |>.imp_right fun ho =>
        ho.imp_right fun ho => List.mem_cons.mpr <| .inl ho.symm
    case inr.inl => exact .inr <| .inl hw
    case inr.inr => exact .inr <| .inr <| .tail op hs

theorem performAll_advance (h : c.cursor = .seek text p) (n : Nat) :
    c.performAll (List.replicate n .advance) = ⟨.seek text (p + n), c.current⟩ := by
  induction n generalizing c p
  case zero    => cases c; cases h; rfl
  case succ hi =>
    have ha : (c.perform .advance).cursor = .seek text (p + 1) :=
      congrArg Cursor.advance h |>.trans <| Cursor.advance_seek text p
    rw [List.replicate_succ, performAll, List.foldl_cons]
    exact hi ha |>.trans <| by rw [Nat.add_right_comm]; rfl

theorem exists_performAll (text : String) (c : Calculator) :
    (∃ ops, (ofText text).performAll ops = c) ↔ c.cursor = .seek text.toList c.cursor.pos where
  mp := fun ⟨ops, h⟩ => h ▸ performAll_seek rfl ops
  mpr h := by
    refine ⟨List.replicate c.cursor.pos .advance ++ [.set c.current], ?_⟩
    have ha := performAll_advance (c := ofText text) rfl c.cursor.pos
    rw [performAll] at ha
    rw [performAll, List.foldl_append, ha, Nat.zero_add, ←h]
    rfl

end Calculator

-- Whatever was done before, a token is passed only if it is of the kind that is asked for and another
-- one can be read, which is then the current one. Everything else leaves the current token as it is,
-- and all but a fault the cursor too. Then the same fails again for ever, with nothing changed,
-- unless the fault is a literal that is too long, behind which the cursor stands. The calculators
-- that can be come to are all those whose cursor is one of the text.
theorem passing_careful (text : String) (ops : List Calculator.Operation) :
    let c := (Calculator.ofText text).performAll ops
    (∀ k, c.Careful k (fun _ => ()) (Calculator.expect k)) ∧
    c.Careful .integer Token.value Calculator.operand ∧
    (∀ t, c.current = some t → ¬t.value.Writable → .set (some t) ∈ ops) ∧
    (∀ f, c.cursor.read.1 = .fault f →
      ∃ q, Met c.cursor.pos (visible c.cursor.rest) q f ∧
        c.cursor.read.2 = .seek text.toList (q + f.width)) ∧
    ∀ d, (∃ ops, (Calculator.ofText text).performAll ops = d) ↔
      d.cursor = .seek text.toList d.cursor.pos := by
  intro c
  refine ⟨fun k => Calculator.Passes.careful (Calculator.expect_passes k) c,
    Calculator.Passes.careful Calculator.operand_passes c, fun t ht hw => ?_, fun f hf => ?_,
    Calculator.exists_performAll text⟩
  case refine_1 =>
    obtain h | h | h := Calculator.performAll_current ht
    case inl     => cases h
    case inr.inl => exact absurd h hw
    case inr.inr => exact h
  case refine_2 =>
    have hr := hf ▸ Reads.of_read c.cursor
    have ⟨q, hm, hp⟩ := hr.met_fault
    exact ⟨q, hm, hp ▸ hr.reaches.eq_seek_of (Calculator.performAll_seek rfl ops)⟩

example :
    let c := (Calculator.ofText "1 $").load.after
    (c.retry Calculator.operand 3).after = ⟨.seek "1 $".toList 2, some (.integer 1)⟩ := by
  decide

end Abacus
