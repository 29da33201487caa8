import Abacus.Proofs.Readings
import Abacus.Proofs.Schedules

namespace Abacus

namespace Cursor.Reaches

variable {c d : Cursor} {text : List Char} {p : Nat}

theorem refl (c : Cursor) : c.Reaches c :=
  ⟨[], nofun, rfl, rfl⟩

theorem skip {q : Char → Bool} (hq : ∀ x, q x → isTerminator x = false) : c.Reaches (c.skip q) :=
  ⟨c.rest.takeWhile q, fun _ hx => hq _ (List.mem_takeWhile_imp hx),
    List.takeWhile_append_dropWhile.symm, rfl⟩

theorem eq_seek_of (h : c.Reaches d) (hc : c = seek text c.pos) : d = seek text d.pos := by
  rw [hc] at h
  exact h.eq_seek

theorem pos_le : c.Reaches d → c.pos ≤ d.pos := by
  intro ⟨_, _, _, hp⟩
  omega

theorem pos_le_max : (seek text p).Reaches d → d.pos ≤ max p text.length := by
  intro ⟨s, _, hr, hp⟩
  have hl := congrArg List.length hr
  simp [seek] at hl hp
  omega

theorem pos_le_terminator {i : Nat} {x : Char} (h : (seek text p).Reaches d) (hi : p ≤ i)
    (hx : text[i]? = some x) (ht : isTerminator x) : d.pos ≤ i := by
  obtain ⟨s, hs, hr, hp⟩ := h
  by_contra hn
  have hd : text.drop p = s ++ d.rest := hr
  have hp : d.pos = p + s.length := hp
  have hl : i - p < s.length := by omega
  rw [show i = p + (i - p) by omega, ←List.getElem?_drop, hd, List.getElem?_append_left hl] at hx
  rw [hs x (List.mem_of_getElem? hx)] at ht
  cases ht

end Cursor.Reaches

namespace Reads

variable {c d : Cursor} {r : Reading}

theorem of_read (c : Cursor) : Reads c c.read.1 c.read.2 :=
  iff_read_eq.mpr rfl

theorem pos_lt (h : Reads c r d) (hr : ¬r.Final) : c.pos < d.pos := by
  have ⟨s, _, hd, hp⟩ := h.reaches
  have hl := h.length_lt hr
  rw [hd, List.length_append] at hl
  omega

end Reads

namespace Tape

inductive Operation
  | move (m : Move)
  | advance
  | skipSpaces
  | literal
  | current
  deriving DecidableEq, Repr

def perform (t : Tape) : Operation → Tape
  | .move m     => (t.move m).2
  | .advance    => { t with cursor := t.cursor.advance }
  | .skipSpaces => { t with cursor := t.cursor.skipSpaces }
  | .literal    => { t with cursor := t.cursor.literal.2 }
  | .current    => t

def performAll (t : Tape) (ops : List Operation) : Tape :=
  ops.foldl perform t

variable {t : Tape} {op : Operation} {text : List Char}

theorem reaches_move (t : Tape) (m : Move) : t.cursor.Reaches (t.move m).2.cursor := by
  have ⟨r, d, h⟩ := Reads.exists_reads t.cursor
  cases m
  case pull   => exact move_pull h ▸ h.reaches
  case fork   => exact .refl _
  case next k =>
    by_cases hs : t.spent[k]? = some false
    case pos => exact move_next hs h ▸ h.reaches
    case neg => exact move_spent hs ▸ .refl _

theorem reaches_perform (h : op ≠ .advance) : t.cursor.Reaches (t.perform op).cursor := by
  cases op
  case move m     => exact t.reaches_move m
  case advance    => exact absurd rfl h
  case skipSpaces => exact .skip fun x hx => by simpa using of_decide_eq_true hx ▸ rfl
  case literal =>
    rw [perform, Cursor.literal_snd]
    exact .skip fun x => Cursor.not_terminator_of_isDigit
  case current => exact .refl _

theorem pos_le_perform (t : Tape) (op : Operation) : t.cursor.pos ≤ (t.perform op).cursor.pos := by
  by_cases h : op = .advance
  case pos => exact h ▸ Nat.le_succ _
  case neg => exact (reaches_perform h).pos_le

theorem perform_seek (h : t.cursor = .seek text t.cursor.pos) :
    (t.perform op).cursor = .seek text (t.perform op).cursor.pos := by
  by_cases ho : op = .advance
  case pos =>
    have := Cursor.advance_seek text t.cursor.pos
    rw [←h] at this
    exact ho ▸ this
  case neg => exact reaches_perform ho |>.eq_seek_of h

theorem performAll_append (t : Tape) (ops more : List Operation) :
    t.performAll (ops ++ more) = (t.performAll ops).performAll more :=
  List.foldl_append

theorem performAll_seek (h : t.cursor = .seek text t.cursor.pos) (ops : List Operation) :
    (t.performAll ops).cursor = .seek text (t.performAll ops).cursor.pos := by
  induction ops generalizing t
  case nil     => exact h
  case cons hi => exact hi <| perform_seek h

theorem pos_le_performAll (t : Tape) (ops : List Operation) :
    t.cursor.pos ≤ (t.performAll ops).cursor.pos := by
  induction ops generalizing t
  case nil           => exact Nat.le_refl _
  case cons op _ hi => exact Nat.le_trans (t.pos_le_perform op) (hi _)

end Tape

theorem Feed.length_cursors (feed : Feed) : feed.cursors.length = feed.readings.length := by
  induction feed
  case lexeme hi   => exact congrArg (· + 1) hi
  case eof | fault => rfl

namespace Cursor

variable {c d : Cursor} {r : Reading} {k : Nat}

theorem feed_nth (hr : c.feed.readings[k]? = some r) (hd : c.feed.cursors[k]? = some d) :
    Nth c k r d := by
  induction c using feed_induction generalizing k
  case lexeme h hf hi =>
    rw [hf] at hr hd
    cases k
    case zero =>
      cases hr
      cases hd
      exact .here h
    case succ => exact .behind h <| hi hr hd
  case eof h hf =>
    rw [hf] at hr hd
    cases k <;> cases hr
    cases hd
    exact .here h
  case fault h hf =>
    rw [hf] at hr hd
    cases k <;> cases hr
    cases hd
    exact .here h

theorem length_readings_le (c : Cursor) : c.feed.readings.length ≤ c.rest.length + 1 := by
  induction c using feed_induction
  case lexeme h hf hi =>
    have := length_read_lt h.read_eq
    simp only [hf, Feed.readings, List.length_cons]
    omega
  case eof hf   => simp [hf, Feed.readings]
  case fault hf => simp [hf, Feed.readings]

theorem getElem?_readings (h : k < c.feed.readings.length) :
    c.feed.readings[k]? = some (c.nth k).1 ∧ c.feed.cursors[k]? = some (c.nth k).2 := by
  have hr := List.getElem?_eq_getElem h
  have hd := List.getElem?_eq_getElem <| Feed.length_cursors c.feed ▸ h
  rw [hr, hd, feed_nth hr hd |>.nth_eq]
  exact ⟨rfl, rfl⟩

theorem take_readings (h : k ≤ c.feed.readings.length) :
    c.feed.readings.take k = (List.range k).map fun i => (c.nth i).1 := by
  refine List.ext_getElem? fun i => ?_
  by_cases hi : i < k
  case pos => simp [List.getElem?_take_of_lt hi, getElem?_readings (Nat.lt_of_lt_of_le hi h), hi]
  case neg => simp [hi]

end Cursor

namespace Tape

variable {sw : Switches} {t : Tape} {k : Nat}

theorem yielded_cons {u : Turn} {us : List Turn} :
    yielded (u :: us) k = (if u.move = .next k then u.answer.toList else []) ++ yielded us k := by
  by_cases h : u.move = .next k <;> cases ha : u.answer <;> simp [yielded, h, ha]

def iterate (sw : Switches) (t : Tape) (k n : Nat) : List (Answer Token) :=
  yielded (t.run sw (List.replicate n (.next k))) k

theorem iterate_spent (h : t.spent[k]? = some true) (n : Nat) : t.iterate sw k n = [] := by
  induction n
  case zero => rfl
  case succ n hi =>
    have hm := move_spent (t := t) (k := k) (by simp [h])
    rw [iterate, List.replicate_succ, run, yielded_cons, hm, ←iterate, hi]
    simp [hm]

theorem iterate_eq (h : t.spent[k]? = some false) (n : Nat) :
    t.iterate sw k n = (t.cursor.feed.readings.take n).map (·.answer sw) := by
  induction n generalizing t
  case zero => rfl
  case succ n hi =>
    have ⟨r, d, hr⟩ := Reads.exists_reads t.cursor
    have hk : k < t.spent.length := (List.getElem?_eq_some_iff.mp h).1
    have hm := move_next h hr
    have hs : (t.spent.set k (next.ends r))[k]? = some (next.ends r) := List.getElem?_set_self hk
    rw [iterate, List.replicate_succ, run, yielded_cons, hm, ←iterate, t.cursor.feed_eq, hr.read_eq]
    cases r
    case lexeme => rw [hi hs]; simp [hm, Feed.readings]
    case eof    => rw [iterate_spent hs]; simp [hm, Feed.readings]
    case fault  => rw [iterate_spent hs]; simp [hm, Feed.readings]

theorem iterate_ofText (sw : Switches) (text : String) (n : Nat) :
    yielded ((ofText text).run sw (.fork :: List.replicate n (.next 0))) 0 =
      ((Feed.ofText text).readings.take n).map (·.answer sw) := by
  rw [run, yielded_cons, ←iterate]
  exact iterate_eq (t := ⟨.start text.toList, [false]⟩) rfl n

end Tape

def faults : Except Error α → Nat
  | .error (.lexical _) => 1
  | _                   => 0

theorem faults_eq_zero {err : Error} (h : ¬err.IsLexical) :
    faults (.error err : Except Error α) = 0 := by
  cases err
  case lexical => exact absurd trivial h
  all_goals rfl

theorem faults_refuse {t : Token} {es : List Event} {d : Cursor} :
    faults (Evaluation.refuse t es d).outcome = 0 :=
  faults_eq_zero Error.ofMisplaced_not_lexical

theorem Left.faults_close {left : Left} {n : Nat} {err : Error} (h : left.close n = .error err) :
    faults (.error err : Except Error Int) = 0 :=
  faults_eq_zero <| close_not_lexical h

theorem Evaluates.reads {left : Left} {feed : Feed} (r : Evaluates left current feed e) :
    ∃ k, e.tokens.length + faults e.outcome = k + 1 ∧
      e.tokens = (feed.readings.take (k + 1)).filterMap (·.token.toOption) ∧
      feed.cursors[k]? = some e.cursor := by
  induction r
  case eof          => exact ⟨0, by rw [faults_refuse]; rfl, rfl, rfl⟩
  case operator     => exact ⟨0, by rw [faults_refuse]; rfl, rfl, rfl⟩
  case fault        => exact ⟨0, rfl, rfl, rfl⟩
  case operandFault => exact ⟨1, rfl, rfl, rfl⟩
  case failedEof h  => exact ⟨1, by rw [Left.faults_close h]; rfl, rfl, rfl⟩
  case failed h     => exact ⟨1, by rw [Left.faults_close h]; rfl, rfl, rfl⟩
  case value h =>
    have ht := Left.close_tokens h
    refine ⟨1, ?_, ?_, rfl⟩
    case refine_1 => simp [ht, faults]
    case refine_2 =>
      simp only [Evaluation.tokens_mk, List.filterMap_cons, ht]
      rfl
  case operand h =>
    have ht := Left.close_tokens h
    refine ⟨1, ?_, ?_, rfl⟩
    case refine_1 =>
      rw [faults_refuse]
      simp [Evaluation.refuse, ht]
    case refine_2 =>
      simp only [Evaluation.refuse, Evaluation.tokens_mk, List.filterMap_cons, ht]
      rfl
  case round h _ hi =>
    have ht := Left.close_tokens h
    obtain ⟨k, hn, he, hc⟩ := hi
    refine ⟨k + 2, ?_, ?_, hc⟩
    case refine_1 =>
      simp [ht]
      omega
    case refine_2 =>
      simp only [Evaluation.tokens_before, List.filterMap_cons, ht, he]
      rfl

theorem Evaluates.reaches {left : Left} {c : Cursor} (r : Evaluates left current c.feed e) :
    c.Reaches e.cursor := by
  have ⟨k, _, _, hc⟩ := r.reads
  have hk : k < c.feed.readings.length :=
    Feed.length_cursors c.feed ▸ (List.getElem?_eq_some_iff.mp hc).1
  exact Cursor.feed_nth (List.getElem?_eq_getElem hk) hc |>.reaches

theorem Feed.count_eof_le (feed : Feed) : feed.tokens.count .eof ≤ 1 := by
  induction feed
  case lexeme l _ _ hi => simpa [tokens, List.count_cons, l.token_ne_eof] using hi
  case eof             => exact Nat.le_refl 1
  case fault           => exact Nat.zero_le 1

namespace Calculator

def Use.tokens (u : Use α) : List Token :=
  u.events.filterMap Event.token?

def Use.reads (u : Use α) : Nat :=
  u.tokens.length + faults u.outcome

theorem expression_reads (c : Calculator) :
    ∃ k ≤ c.cursor.rest.length, c.expression.reads = k + 1 ∧
      c.expression.tokens =
        ((List.range (k + 1)).map fun i => (c.cursor.nth i).1).filterMap (·.token.toOption) ∧
      c.expression.after.cursor = (c.cursor.nth k).2 := by
  have ⟨k, hn, ht, hc⟩ := Evaluation.evaluates .nothing c.current c.cursor.feed |>.reads
  have hk : k < c.cursor.feed.readings.length := by
    rw [←Feed.length_cursors]
    exact (List.getElem?_eq_some_iff.mp hc).1
  have := c.cursor.length_readings_le
  have hd := (Cursor.getElem?_readings hk).right
  refine ⟨k, by omega, hn, ?_, Option.some.inj (hc.symm.trans hd)⟩
  rw [←Cursor.take_readings hk]
  exact ht

theorem expression_count_eof (c : Calculator) : c.expression.tokens.count .eof ≤ 1 := by
  have ⟨k, _, ht, _⟩ := Evaluation.evaluates .nothing c.current c.cursor.feed |>.reads
  have hs := (List.take_sublist (k + 1) c.cursor.feed.readings).filterMap (·.token.toOption)
  rw [←Feed.tokens_eq_filterMap, ←ht] at hs
  exact Nat.le_trans (hs.count_le _) c.cursor.feed.count_eof_le

end Calculator

-- Nothing moves a cursor back, and nothing but `advance` moves it behind the end of its line. Each
-- lexeme and each literal that is too long is passed. So an iterator gives no more answers than the
-- text has characters and one more, and an evaluation reads no further, from any cursor in the text
-- or behind it.
theorem cursor_progress (sw : Switches) (text : String) :
    (∀ ops, ((Tape.ofText text).performAll ops).cursor =
      .seek text.toList ((Tape.ofText text).performAll ops).cursor.pos) ∧
    (∀ ops more, ((Tape.ofText text).performAll ops).cursor.pos ≤
      ((Tape.ofText text).performAll (ops ++ more)).cursor.pos) ∧
    (∀ ops op, op ≠ .advance →
      let t := (Tape.ofText text).performAll ops
      (t.perform op).cursor.pos ≤ max t.cursor.pos text.length ∧
        ∀ i, t.cursor.pos ≤ i → text.toList[i]? = some '\n' ∨ text.toList[i]? = some '\r' →
          (t.perform op).cursor.pos ≤ i) ∧
    (∀ p t, (Cursor.seek text.toList p).read.1.token = .ok t → t ≠ .eof →
      p < (Cursor.seek text.toList p).read.2.pos) ∧
    (∀ p n column, (Cursor.seek text.toList p).read.1 = .fault (.literal n column) →
      p < (Cursor.seek text.toList p).read.2.pos) ∧
    (∀ n, Tape.yielded ((Tape.ofText text).run sw (.fork :: List.replicate n (.next 0))) 0 =
      ((Feed.ofText text).readings.take n).map (·.answer sw)) ∧
    (Feed.ofText text).readings.length ≤ text.length + 1 ∧
    ∀ p current,
      let c : Calculator := ⟨.seek text.toList p, current⟩
      c.expression.tokens.count .eof ≤ 1 ∧
        ∃ k ≤ text.length - p, c.expression.reads = k + 1 ∧
          c.expression.tokens =
            ((List.range (k + 1)).map fun i => (c.cursor.nth i).1).filterMap (·.token.toOption) ∧
          c.expression.after.cursor = (c.cursor.nth k).2 := by
  refine ⟨Tape.performAll_seek rfl, fun ops more => ?_, fun ops op ho => ?_, fun p t => ?_,
    fun p n column => ?_, Tape.iterate_ofText sw text, ?_, fun p current =>
      ⟨Calculator.expression_count_eof _, ?_⟩⟩
  case refine_1 =>
    rw [Tape.performAll_append]
    exact Tape.pos_le_performAll _ more
  case refine_2 =>
    have hr := Tape.reaches_perform (t := (Tape.ofText text).performAll ops) ho
    rw [Tape.performAll_seek rfl ops] at hr
    refine ⟨hr.pos_le_max, fun i hi hx => ?_⟩
    cases hx
    case inl hx => exact hr.pos_le_terminator hi hx rfl
    case inr hx => exact hr.pos_le_terminator hi hx rfl
  case refine_3 =>
    intro ht hn
    refine Reads.of_read (.seek text.toList p) |>.pos_lt fun hf => hn ?_
    generalize (Cursor.seek text.toList p).read.1 = r at ht hf
    cases r
    case lexeme => exact hf.elim
    case eof    => exact Except.ok.inj ht.symm
    case fault  => cases ht
  case refine_4 =>
    intro hr
    refine Reads.of_read (.seek text.toList p) |>.pos_lt fun hf => ?_
    rw [hr] at hf
    exact hf
  case refine_5 => exact Cursor.length_readings_le _
  case refine_6 =>
    have ⟨k, hk, he⟩ := Calculator.expression_reads ⟨.seek text.toList p, current⟩
    have hl : (Cursor.seek text.toList p).rest.length = text.length - p := List.length_drop
    exact ⟨k, hl ▸ hk, he⟩

end Abacus
