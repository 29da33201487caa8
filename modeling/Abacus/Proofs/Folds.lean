import Abacus.Proofs.Evaluates
import Abacus.Proofs.Layout

namespace Abacus

inductive Operator.Yields : Operator → Int → Nat → Int → Prop
  | plus : Yields .plus l n (l + n)
  | minus : Yields .minus l n (l - n)
  | times : Yields .times l n (l * n)
  | divide {l q : Int} {n : Nat} (h₁ : 0 ≤ l - q * n) (h₂ : l - q * n < n) : Yields .divide l n q

theorem Operator.yields_iff {o : Operator} {l v : Int} {n : Nat} :
    o.Yields l n v ↔ ¬(o = divide ∧ n = 0) ∧ o.exact l n = v where
  mp h := by
    cases h
    case divide h₁ h₂ =>
      have hn : (0 : Int) < n := Int.lt_of_le_of_lt h₁ h₂
      have hr : l - v * n + n * v = l := by rw [Int.mul_comm v, Int.sub_add_cancel]
      have := Int.ediv_emod_unique hn |>.mpr ⟨hr, h₁, h₂⟩
      refine ⟨by omega, ?_⟩
      rw [exact, Int.fdiv_eq_ediv_of_nonneg l (Int.natCast_nonneg n), this.left]
    all_goals simp [exact]
  mpr := by
    intro ⟨hz, hv⟩
    subst hv
    cases o
    case divide =>
      have hn : (0 : Int) < n := by simp at hz; omega
      have hq := Int.emod_def l n
      rw [exact, Int.fdiv_eq_ediv_of_nonneg l (Int.natCast_nonneg n)]
      refine .divide ?_ ?_ <;> rw [Int.mul_comm, ←hq]
      · exact Int.emod_nonneg l (Int.ne_of_gt hn)
      · exact Int.emod_lt_of_pos l hn
    all_goals constructor

-- `Folds l ops v` reads: the operations `ops` take `l` to `v`, each within the digit limit.
inductive Folds : Int → List (Operator × Nat) → Int → Prop
  | nil : Folds v [] v
  | cons (h : o.Yields l n r) (hr : Numeral.Writable r) (hf : Folds r ops v) :
      Folds l ((o, n) :: ops) v

def operations : List (Operator × Nat) → List Lexeme
  | []            => []
  | (o, n) :: ops => .operator o :: .integer n :: operations ops

def alternation (n : Nat) (ops : List (Operator × Nat)) : List Lexeme :=
  .integer n :: operations ops

theorem alternation_round {n m : Nat} {o : Operator} {ls : List Lexeme}
    {ops : List (Operator × Nat)} :
    .integer n :: .operator o :: ls = alternation m ops ↔
      n = m ∧ ∃ k rest, ops = (o, k) :: rest ∧ ls = alternation k rest := by
  cases ops
  case nil => simp [alternation, operations]
  case cons op ops =>
    simp only [alternation, operations, List.cons.injEq, Lexeme.integer.injEq,
      Lexeme.operator.injEq]
    constructor
    case mp =>
      intro ⟨hn, ho, hl⟩
      exact ⟨hn, op.2, ops, ⟨by rw [ho], rfl⟩, hl⟩
    case mpr =>
      intro ⟨hn, k, rest, ⟨hp, hr⟩, hl⟩
      subst hp hr
      exact ⟨hn, rfl, hl⟩

inductive Left.Closes : Left → Nat → Int → Prop
  | nothing : Closes .nothing n n
  | waiting (h : o.Yields l n v) (hv : Numeral.Writable v) : Closes (.waiting l o) n v

theorem Left.closes_iff {left : Left} {n : Nat} {v : Int} (hl : left.Writable)
    (hn : Numeral.Writable n) : left.Closes n v ↔ ∃ es, left.close n = .ok (v, es) := by
  cases left
  case nothing =>
    constructor
    case mp  => intro h; cases h; exact ⟨[], rfl⟩
    case mpr => intro ⟨es, h⟩; cases h; exact .nothing
  case waiting l o =>
    rw [close_waiting hl hn]
    constructor
    case mp =>
      intro h
      cases h
      case waiting hv h =>
        have ⟨hz, hv'⟩ := Operator.yields_iff.mp h
        simp [hz, hv', hv]
    case mpr =>
      intro ⟨es, h⟩
      split at h <;> try split at h
      case isFalse.isTrue hz hv =>
        cases h
        exact .waiting (Operator.yields_iff.mpr ⟨hz, rfl⟩) hv
      all_goals cases h

theorem Left.closes_of_ok {left : Left} {n : Nat} {v w : Int} (hl : left.Writable)
    (hn : Numeral.Writable n) (h : left.close n = .ok (v, es)) : left.Closes n w ↔ v = w := by
  simp [closes_iff hl hn, h]

theorem Left.not_closes_of_error {left : Left} {n : Nat} {w : Int} (hl : left.Writable)
    (hn : Numeral.Writable n) (h : left.close n = .error err) : ¬left.Closes n w := by
  simp [closes_iff hl hn, h]

def Left.Takes (left : Left) (ls : List Lexeme) (v : Int) : Prop :=
  ∃ n ops w, ls = alternation n ops ∧ left.Closes n w ∧ Folds w ops v

namespace Left

variable {left : Left} {n : Nat} {v : Int} {ls : List Lexeme}

theorem not_takes_nil : ¬left.Takes [] v := by
  simp [Takes, alternation]

theorem not_takes_operator {o : Operator} : ¬left.Takes (.operator o :: ls) v := by
  simp [Takes, alternation]

theorem not_takes_operand {m : Nat} : ¬left.Takes (.integer n :: .integer m :: ls) v := by
  intro ⟨_, ops, _, h, _⟩
  cases ops <;> simp [alternation, operations] at h

theorem takes_last : left.Takes [.integer n] v ↔ left.Closes n v where
  mp := by
    intro ⟨_, ops, _, h, hc, hf⟩
    cases ops <;> simp [alternation, operations] at h
    subst h
    cases hf
    exact hc
  mpr h := ⟨n, [], v, rfl, h, .nil⟩

theorem takes_round {o : Operator} :
    left.Takes (.integer n :: .operator o :: ls) v ↔
      ∃ w, left.Closes n w ∧ (waiting w o).Takes ls v where
  mp := by
    intro ⟨_, _, w, h, hc, hf⟩
    have ⟨hn, k, rest, ho, hl⟩ := alternation_round.mp h
    subst hn ho
    cases hf
    case cons r hr h hf => exact ⟨w, hc, k, rest, r, hl, .waiting h hr, hf⟩
  mpr := by
    intro ⟨w, hc, k, rest, r, hl, hr, hf⟩
    cases hr
    case waiting hv h =>
      exact ⟨n, (o, k) :: rest, w, alternation_round.mpr ⟨rfl, k, rest, rfl, hl⟩, hc, .cons h hv hf⟩

end Left

theorem Evaluates.outcome_eq_ok_iff {left : Left} {feed : Feed}
    (r : Evaluates left current feed e) (hl : left.Writable) (hf : feed.Limited) :
    e.outcome = .ok v ↔ feed.fault? = none ∧ left.Takes feed.lexemes v := by
  induction r <;> simp at hf
  case eof          => simp [Evaluation.refuse, Feed.lexemes, Left.not_takes_nil]
  case operator     => simp [Evaluation.refuse, Feed.lexemes, Left.not_takes_operator]
  case fault        => simp [Feed.fault?]
  case operandFault => simp [Feed.fault?]
  case failedEof h =>
    simp [Feed.lexemes, Left.takes_last, Left.not_closes_of_error hl hf h]
  case failed l _ _ _ h =>
    cases l
    case integer => simp [Feed.lexemes, Left.not_takes_operand]
    case operator =>
      simp [Feed.lexemes, Left.takes_round, Left.not_closes_of_error hl hf.left h]
  case value h =>
    simp [Feed.lexemes, Feed.fault?, Left.takes_last, Left.closes_of_ok hl hf h]
  case operand      => simp [Evaluation.refuse, Feed.lexemes, Left.not_takes_operand]
  case round h _ hi =>
    have hw := Left.close_writable hl hf.left h
    simp [hi hw.left hf.right, Feed.fault?, Feed.lexemes, Left.takes_round,
      Left.closes_of_ok hl hf.left h]

theorem Left.takes_nothing {ls : List Lexeme} {v : Int} :
    nothing.Takes ls v ↔ ∃ n ops, ls = alternation n ops ∧ Folds n ops v where
  mp := by
    intro ⟨n, ops, w, h, hc, hf⟩
    cases hc
    exact ⟨n, ops, h, hf⟩
  mpr := by
    intro ⟨n, ops, h, hf⟩
    exact ⟨n, ops, n, h, .nothing, hf⟩

theorem evaluate_takes {sw : Switches} {line : String} {v : Int} :
    (evaluate sw line).outcome = .ok v ↔
      (Feed.ofText line).fault? = none ∧ Left.nothing.Takes (Feed.ofText line).lexemes v := by
  have r := Evaluation.evaluates .nothing none (.ofText line)
  rw [evaluate_outcome]
  exact r.outcome_eq_ok_iff trivial (Cursor.feed_limited _)

-- A line has the value that its left-to-right reading has, and an error if there is none.
theorem evaluate_eq_ok_iff (sw : Switches) (line : String) :
    (∀ v, (evaluate sw line).outcome = .ok v ↔
      ∃ n ops, Layout (alternation n ops) (visible line.toList) ∧ Folds n ops v) ∧
    ((∃ err, (evaluate sw line).outcome = .error err) ↔
      ¬∃ v n ops, Layout (alternation n ops) (visible line.toList) ∧ Folds n ops v) := by
  have key (v : Int) : (evaluate sw line).outcome = .ok v ↔
      ∃ n ops, Layout (alternation n ops) (visible line.toList) ∧ Folds n ops v := by
    have r := Evaluation.evaluates .nothing none (.ofText line)
    rw [evaluate_outcome, Evaluation.ofFeed,
      r.outcome_eq_ok_iff trivial (Cursor.feed_limited _), Left.takes_nothing]
    constructor
    case mp =>
      intro ⟨hf, n, ops, hl, hv⟩
      exact ⟨n, ops, Cursor.layout_iff.mp ⟨hl, hf⟩, hv⟩
    case mpr =>
      intro ⟨n, ops, hl, hv⟩
      have ⟨hl, hf⟩ := Cursor.layout_iff (c := .start line.toList).mpr hl
      exact ⟨hf, n, ops, hl, hv⟩
  refine ⟨key, ?_⟩
  simp only [←key]
  cases (evaluate sw line).outcome <;> simp

end Abacus
