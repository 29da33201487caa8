import Abacus.Proofs.Folds
import Mathlib.Data.Prod.Lex

namespace Abacus

def Feed.readings : Feed → List Reading
  | lexeme l _ next => .lexeme l :: next.readings
  | eof _           => [.eof]
  | fault f _       => [.fault f]

def Reading.IsInteger : Reading → Prop
  | lexeme l          => l.IsInteger
  | eof | fault _ => False

-- An integer is due in even places, and no integer in odd ones.
def Misplaced (i : Nat) (r : Reading) : Prop :=
  if i % 2 = 0 then ¬r.IsInteger else r.IsInteger

-- `Reduces ts k v` reads: the first `k` reductions of `ts` succeed and lead to `v`.
inductive Reduces (ts : List Reading) : Nat → Int → Prop
  | zero {n : Nat} (hn : ts[0]? = some (.lexeme (.integer n))) : Reduces ts 0 n
  | succ (h : Reduces ts k l) (ho : ts[2 * k + 1]? = some (.lexeme (.operator o)))
      (hn : ts[2 * k + 2]? = some (.lexeme (.integer n))) (hv : o.Yields l n v)
      (hw : Numeral.Writable v) : Reduces ts (k + 1) v

structure Attempt (ts : List Reading) (k : Nat) (l : Int) (o : Operator) (n : Nat) : Prop where
  left  : Reduces ts k l
  sign  : ts[2 * k + 1]? = some (.lexeme (.operator o))
  right : ts[2 * k + 2]? = some (.lexeme (.integer n))

inductive Operator.Fails : Operator → Int → Nat → Error → Prop
  | division : Fails .divide l 0 (.divisionByZero (.operator .divide) l)
  | limit (hv : o.Yields l n v) (hw : ¬Numeral.Writable v) : Fails o l n .digitLimit

-- An offence has a place, a rank in this place, and an error. A reduction fails in the place that
-- follows its operand.
inductive Offence (ts : List Reading) : Nat → Nat → Error → Prop
  | fault (f : Fault) (h : ts[i]? = some (.fault f)) : Offence ts i 0 (.lexical f)
  | reduction (k : Nat) (hi : i = 2 * k + 3) (h : Attempt ts k l o n) (hf : o.Fails l n err) :
      Offence ts i 1 err
  | misplaced (r : Reading) (t : Token) (h : ts[i]? = some r) (ht : r.token = .ok t)
      (hm : Misplaced i r) (hl : ∀ j < i, ∀ r', ts[j]? = some r' → ¬Misplaced j r') :
      Offence ts i 2 (.misplaced .unexpectedToken (some t))

theorem misplaced_even {i : Nat} {r : Reading} (h : i % 2 = 0) : Misplaced i r ↔ ¬r.IsInteger := by
  simp [Misplaced, h]

theorem misplaced_odd {i : Nat} {r : Reading} (h : i % 2 = 1) : Misplaced i r ↔ r.IsInteger := by
  simp [Misplaced, h]

def Clear (ts : List Reading) (i : Nat) : Prop :=
  ∀ j c err, Offence ts j c err → i ≤ j

inductive Due (ts : List Reading) : Nat → Left → Prop
  | nothing : Due ts 0 .nothing
  | waiting (k : Nat) (hi : i = 2 * k + 2) (h : Reduces ts k v)
      (ho : ts[2 * k + 1]? = some (.lexeme (.operator o))) : Due ts i (.waiting v o)

namespace Operator

variable {o : Operator} {l v w : Int} {n : Nat} {err err' : Error}

theorem Yields.unique (h₁ : o.Yields l n v) (h₂ : o.Yields l n w) : v = w :=
  (yields_iff.mp h₁).right.symm.trans (yields_iff.mp h₂).right

theorem Fails.unique (h₁ : o.Fails l n err) (h₂ : o.Fails l n err') : err = err' := by
  cases h₁ <;> cases h₂ <;> first | rfl | simp_all [yields_iff]

theorem fails_iff (hl : Numeral.Writable l) (hn : Numeral.Writable n) :
    o.Fails l n err ↔ (Left.waiting l o).close n = .error err := by
  rw [Left.close_waiting hl hn]
  constructor
  case mp =>
    intro h
    cases h
    case division    => simp
    case limit hw hv =>
      have ⟨hz, hv⟩ := yields_iff.mp hv
      simp [hz, hv, hw]
  case mpr =>
    intro h
    split at h <;> try split at h
    case isTrue hz =>
      cases h
      exact hz.left ▸ hz.right ▸ .division
    case isFalse.isFalse hz hw =>
      cases h
      exact .limit (yields_iff.mpr ⟨hz, rfl⟩) hw
    case isFalse.isTrue => cases h

end Operator

variable {ts : List Reading} {i k : Nat} {l v : Int} {o : Operator} {left : Left} {n : Nat}

theorem Reduces.unique {w : Int} (h₁ : Reduces ts k v) (h₂ : Reduces ts k w) : v = w := by
  induction h₁ generalizing w <;> cases h₂
  case zero.zero => simp_all
  case succ.succ h ho hn hv _ hi _ _ _ h' ho' hn' hv' _ =>
    cases hi h'
    cases ho.symm.trans ho'
    cases hn.symm.trans hn'
    exact hv.unique hv'

theorem Attempt.unique {l' : Int} {o' : Operator} {n' : Nat} (h₁ : Attempt ts k l o n)
    (h₂ : Attempt ts k l' o' n') : l = l' ∧ o = o' ∧ n = n' := by
  cases h₁.left.unique h₂.left
  cases h₁.sign.symm.trans h₂.sign
  cases h₁.right.symm.trans h₂.right
  exact ⟨rfl, rfl, rfl⟩

namespace Offence

theorem unique {err err' : Error} (h₁ : Offence ts i c err) (h₂ : Offence ts i c err') :
    err = err' := by
  cases h₁ <;> cases h₂
  case fault.fault f h f' h' => cases h.symm.trans h'; rfl
  case misplaced.misplaced r t h ht _ _ r' t' h' ht' _ _ =>
    cases h.symm.trans h'
    cases ht.symm.trans ht'
    rfl
  case reduction.reduction k hi h hf _ _ _ k' hi' h' hf' =>
    have hk : k = k' := by omega
    subst hk
    have ⟨hl, ho, hn⟩ := h.unique h'
    subst hl ho hn
    exact hf.unique hf'

theorem not_reduction {err : Error} (he : i % 2 = 0) : ¬Offence ts i 1 err := by
  intro h
  cases h
  omega

-- There is no offence behind the end, but for a reduction of the last operand.
theorem le_length {err : Error} (h : Offence ts i c err) : i ≤ ts.length := by
  cases h
  case fault h             => exact (List.getElem?_eq_some_iff.mp h).1.le
  case misplaced h _ _ _ => exact (List.getElem?_eq_some_iff.mp h).1.le
  case reduction k hi h _  =>
    have := (List.getElem?_eq_some_iff.mp h.right).1
    omega

end Offence

namespace Clear

theorem not_misplaced {r : Reading} {j : Nat} (h : Clear ts i) (hj : j < i)
    (hr : ts[j]? = some r) : ¬Misplaced j r := by
  induction j using Nat.strongRecOn generalizing r
  case ind j hi =>
    intro hm
    cases ht : r.token
    case ok t =>
      have := h j 2 _ <| .misplaced r t hr ht hm fun k hk _ hr' => hi k hk (hk.trans hj) hr'
      omega
    case error =>
      cases r <;> cases ht
      case fault f => exact absurd (h j 0 _ (.fault f hr)) (Nat.not_le_of_lt hj)

theorem next {r : Reading} {t : Token} (h : Clear ts i) (hr : ts[i]? = some r)
    (ht : r.token = .ok t) (hm : ¬Misplaced i r) (ho : ∀ err, ¬Offence ts i 1 err) :
    Clear ts (i + 1) := by
  intro j c err hj
  refine Nat.lt_of_le_of_ne (h j c err hj) ?_
  intro hi
  subst hi
  cases hj
  case fault hf             => cases hr.symm.trans hf; cases ht
  case reduction hi ha he => exact ho err <| .reduction _ hi ha he
  case misplaced hr' _ hm' _ => cases hr.symm.trans hr'; exact hm hm'

end Clear

namespace Due

theorem even (h : Due ts i left) : i % 2 = 0 := by
  cases h <;> omega

variable (h : Due ts i left) (hl : left.Writable) (hn : ts[i]? = some (.lexeme (.integer n)))
  (hw : Numeral.Writable n)

include h hl hn hw

theorem offence {err : Error} (hc : left.close n = .error err) : Offence ts (i + 1) 1 err := by
  cases h
  case nothing        => cases hc
  case waiting k h ho hi =>
    exact .reduction k (by omega) ⟨h, ho, hi ▸ hn⟩ <| Operator.fails_iff hl hw |>.mpr hc

theorem not_offence {err : Error} (hc : left.close n = .ok (v, es)) :
    ¬Offence ts (i + 1) 1 err := by
  intro ho
  cases ho
  case reduction k hi ha hf =>
    cases h
    case nothing => omega
    case waiting k' h ho hi' =>
      have hk : k = k' := by omega
      subst hk
      have ⟨hv, ho, hn⟩ := ha.unique ⟨h, ho, hi' ▸ hn⟩
      subst hv ho hn
      cases hc.symm.trans <| Operator.fails_iff hl hw |>.mp hf

theorem next (hc : left.close n = .ok (v, es)) (ho : ts[i + 1]? = some (.lexeme (.operator o))) :
    Due ts (i + 2) (.waiting v o) := by
  have hv := Left.closes_iff hl hw |>.mpr ⟨es, hc⟩
  cases h
  case nothing =>
    cases hv
    exact .waiting 0 rfl (.zero hn) ho
  case waiting k h hs hi =>
    cases hv
    case waiting hv hy =>
      subst hi
      exact .waiting (k + 1) rfl (.succ h hs hn hy hv) ho

end Due

-- No offence stands in an earlier place, or in the same place with a lower rank.
def First (ts : List Reading) (i c : Nat) (err : Error) : Prop :=
  Offence ts i c err ∧ ∀ j d err', Offence ts j d err' → toLex (i, c) ≤ toLex (j, d)

def Decides (ts : List Reading) : Except Error Int → Prop
  | .ok _      => ∀ i c err, ¬Offence ts i c err
  | .error err => ∃ i c, First ts i c err

namespace Clear

variable (h : Clear ts i)

include h

theorem not_offence {err : Error} {j : Nat} (hn : ts.length = i) (he : i % 2 = 0) :
    ¬Offence ts j c err := by
  intro ho
  have hj : j = i := Nat.le_antisymm (hn ▸ ho.le_length) (h j c err ho)
  subst hj
  cases ho
  case fault hf           => simp [List.getElem?_eq_none (Nat.le_of_eq hn)] at hf
  case reduction          => omega
  case misplaced hr _ _ _ => simp [List.getElem?_eq_none (Nat.le_of_eq hn)] at hr

theorem first {err : Error} (ho : Offence ts i c err)
    (hc : ∀ d err', Offence ts i d err' → c ≤ d) : First ts i c err := by
  refine ⟨ho, fun j d err' ho' => ?_⟩
  rw [Prod.Lex.toLex_le_toLex]
  cases Nat.lt_or_eq_of_le <| h j d err' ho'
  case inl hj => exact .inl hj
  case inr hj => exact .inr ⟨hj, hc d err' (hj ▸ ho')⟩

theorem first_fault {f : Fault} (hf : ts[i]? = some (.fault f)) : First ts i 0 (.lexical f) :=
  h.first (.fault f hf) fun _ _ _ => Nat.zero_le _

theorem first_reduction {r : Reading} {t : Token} {err : Error} (hr : ts[i]? = some r)
    (ht : r.token = .ok t) (ho : Offence ts i 1 err) : First ts i 1 err := by
  refine h.first ho fun d err hd => ?_
  cases hd
  case fault hf    => cases hr.symm.trans hf; cases ht
  case reduction => exact Nat.le_refl 1
  case misplaced => exact Nat.le_succ 1

theorem first_misplaced {r : Reading} {t : Token} (hr : ts[i]? = some r) (ht : r.token = .ok t)
    (hm : Misplaced i r) (ho : ∀ err, ¬Offence ts i 1 err) :
    First ts i 2 (.misplaced .unexpectedToken (some t)) := by
  refine h.first (.misplaced r t hr ht hm fun j hj _ => h.not_misplaced hj) fun d err hd => ?_
  cases hd
  case fault hf             => cases hr.symm.trans hf; cases ht
  case reduction hi ha he => exact absurd (.reduction _ hi ha he) (ho err)
  case misplaced            => exact Nat.le_refl 2

end Clear

def Feed.cursors : Feed → List Cursor
  | lexeme _ after next         => after :: next.cursors
  | eof after | fault _ after => [after]

-- How an evaluation ends: with a value, when all was read, or with the first offence of `ts`, when
-- what is in its place was read. The feed is what `ts` holds from place `i` on.
inductive Halts (ts : List Reading) (i : Nat) (feed : Feed) (e : Evaluation) : Prop
  | value {w : Int} (h : e.outcome = .ok w) (hn : ∀ j c err, ¬Offence ts j c err)
      (ht : e.tokens = feed.tokens) (hc : feed.cursors.getLast? = some e.cursor)
  | offence (k c : Nat) (h : e.outcome = .error err) (hf : First ts (i + k) c err)
      (ht : e.tokens = feed.tokens.take (k + 1)) (hc : feed.cursors[k]? = some e.cursor)

theorem getElem?_of_drop {rs : List Reading} (h : ts.drop i = rs) (j : Nat) :
    ts[i + j]? = rs[j]? := by
  rw [←h, List.getElem?_drop]

theorem Evaluates.halts {feed : Feed} (r : Evaluates left current feed e) (hl : left.Writable)
    (hf : feed.Limited) (hd : Due ts i left) (hc : Clear ts i) (ht : ts.drop i = feed.readings) :
    Halts ts i feed e := by
  -- `Due` says what stands to the left of place `i`, and `Clear` that all before it is in order.
  induction r generalizing i <;> simp at hf
  all_goals
    have he := hd.even
    have ho : (i + 1) % 2 = 1 := by omega
    have hz (err : Error) : ¬Offence ts i 1 err := Offence.not_reduction he
    have h₀ := getElem?_of_drop ht 0
  case eof =>
    have := hc.first_misplaced h₀ rfl (misplaced_even he |>.mpr id) hz
    exact .offence 0 _ (Evaluation.refuse_outcome Event.writable_eof) this rfl rfl
  case operator =>
    have := hc.first_misplaced h₀ rfl (misplaced_even he |>.mpr id) hz
    exact .offence 0 _ (Evaluation.refuse_outcome Event.writable_operator) this rfl rfl
  case fault => exact .offence 0 _ rfl (hc.first_fault h₀) rfl rfl
  all_goals
    replace hc := hc.next h₀ rfl (misplaced_even he |>.not.mpr <| not_not.mpr trivial) hz
    have h₁ := getElem?_of_drop ht 1
  case operandFault => exact .offence 1 _ rfl (hc.first_fault h₁) rfl rfl
  case failedEof h =>
    exact .offence 1 _ rfl (hc.first_reduction h₁ rfl <| hd.offence hl h₀ hf h) rfl rfl
  case failed h =>
    exact .offence 1 _ rfl (hc.first_reduction h₁ rfl <| hd.offence hl h₀ hf.left h) rfl rfl
  case value h =>
    have hr (err : Error) : ¬Offence ts (i + 1) 1 err := hd.not_offence hl h₀ hf h
    replace hc := hc.next h₁ rfl (misplaced_odd ho |>.not.mpr id) hr
    have hn : ts.length = i + 2 := by
      have := congrArg List.length ht
      simp [Feed.readings] at this
      omega
    refine .value rfl (fun _ _ _ => hc.not_offence hn (by omega)) ?_ rfl
    simp [Left.close_tokens h, Feed.tokens, Lexeme.token]
  case operand h =>
    have := hc.first_misplaced h₁ rfl (misplaced_odd ho |>.mpr trivial) fun _ =>
      hd.not_offence hl h₀ hf.left h
    have hw := Event.writable_integer.mpr hf.right.left
    refine .offence 1 _ (Evaluation.refuse_outcome hw) this ?_ rfl
    simp [Evaluation.refuse, Left.close_tokens h, Feed.tokens, Lexeme.token]
  case round h _ hi =>
    have hr (err : Error) : ¬Offence ts (i + 1) 1 err := hd.not_offence hl h₀ hf.left h
    have hn := hd.next hl h₀ hf.left h h₁
    replace hc := hc.next h₁ rfl (misplaced_odd ho |>.not.mpr id) hr
    have hw := Left.close_writable hl hf.left h |>.left
    cases hi hw hf.right hn hc <| by rw [←List.drop_drop, ht]; rfl
    case value he hn ht hd =>
      refine .value he hn ?_ ?_
      case refine_1 => simp [Left.close_tokens h, ht, Feed.tokens, Lexeme.token]
      case refine_2 => simp [Feed.cursors, List.getLast?_cons, hd, Evaluation.before]
    case offence k c he hf ht hd =>
      rw [Nat.add_right_comm, Nat.add_assoc] at hf
      refine .offence (k + 2) c he hf ?_ hd
      simp [Left.close_tokens h, ht, Feed.tokens, Lexeme.token]

theorem Feed.halts (line : String) :
    Halts (Feed.ofText line).readings 0 (Feed.ofText line)
      (Evaluation.ofFeed none (.ofText line)) :=
  Evaluation.evaluates .nothing none _ |>.halts trivial (Cursor.feed_limited _) .nothing
    (fun _ _ _ _ => Nat.zero_le _) rfl

theorem Feed.decides (line : String) :
    Decides (Feed.ofText line).readings (Evaluation.ofFeed none (.ofText line)).outcome := by
  cases Feed.halts line
  case value h hn _ _       => exact h ▸ hn
  case offence k c h hf _ _ => exact h ▸ ⟨0 + k, c, hf⟩

theorem Decides.error_iff {r : Except Error Int} {err : Error} (h : Decides ts r) :
    r = .error err ↔ ∃ i c, First ts i c err := by
  constructor
  case mp =>
    intro hr
    subst hr
    exact h
  case mpr =>
    intro ⟨i, c, ho, hi⟩
    cases r
    case ok => exact absurd ho (h i c err)
    case error err' =>
      have ⟨j, d, ho', hj⟩ := h
      cases toLex.injective <| le_antisymm (hi j d err' ho') (hj i c err ho)
      rw [ho.unique ho']

theorem Decides.ok_iff {r : Except Error Int} (h : Decides ts r) :
    (∃ v, r = .ok v) ↔ ∀ i c err, ¬Offence ts i c err := by
  cases r
  case ok v => simpa [Decides] using h
  case error err =>
    have ⟨i, c, ho, _⟩ := h
    simp
    exact ⟨i, c, err, ho⟩

-- A line without an offence has a value. Of any other line the first offence is reported, if it is
-- one that the user is told of.
theorem evaluate_eq_error_iff (sw : Switches) (line : String) :
    ((∃ v, (evaluate sw line).outcome = .ok v) ↔
      ∀ i c err, ¬Offence (Feed.ofText line).readings i c err) ∧
    (∀ err, (evaluate sw line).outcome = .error err ↔
      ∃ i c, Offence (Feed.ofText line).readings i c err ∧
        ∀ j d err', Offence (Feed.ofText line).readings j d err' → toLex (i, c) ≤ toLex (j, d)) ∧
    (∀ f, ∃ m, (Error.lexical f).report? = some ⟨.lexical, some .malformed, none, m⟩) ∧
    (∀ l, (Error.divisionByZero (.operator .divide) l).report? =
      some ⟨.division, some .divisionByZero, some ⟨.operator .divide, .text "/"⟩,
        some ("Division by zero: " ++ Numeral.decimal l ++ " / 0")⟩) ∧
    Error.digitLimit.report? = none ∧
    (∀ t, (Error.misplaced .unexpectedToken (some t)).report? =
      some ⟨.parse, some .unexpectedToken, some t,
        some ("Error parsing input -> " ++ t.written)⟩) := by
  have h := Feed.decides line
  rw [←evaluate_outcome sw] at h
  exact ⟨h.ok_iff, fun err => h.error_iff, fun f => ⟨_, rfl⟩,
    fun l => congrArg some <| Report.division_eq (.operator .divide) l, rfl,
    fun t => congrArg some <| Report.misplaced_unexpectedToken t⟩

end Abacus
