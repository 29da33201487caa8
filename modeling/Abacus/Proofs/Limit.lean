import Abacus.Batch
import Abacus.Proofs.Layout
import Abacus.Proofs.Loop
import Abacus.Session

namespace Abacus

theorem Numeral.Writable.mono {k n : Nat} (h : Writable n) (hk : k ≤ n) : Writable k :=
  Nat.lt_of_le_of_lt hk h

def Cursor.Within (m : Nat) (c : Cursor) : Prop :=
  c.rest ≠ [] → c.pos + c.rest.length ≤ m

theorem Cursor.seek_within (text : List Char) (p : Nat) : (seek text p).Within text.length := by
  intro h
  have : p < text.length := by simpa [seek] using h
  simp [seek]
  omega

theorem Fault.writings_site (f : Fault) : ∀ w ∈ f.writings, w.site = .position := by
  cases f <;> simp [writings]

namespace Reads

variable {c d : Cursor} {m : Nat}

theorem within (h : Reads c r d) (hc : c.Within m) : d.Within m := by
  intro hd
  have hl := List.length_pos_iff.mpr hd
  cases h
  all_goals
    have hr := congrArg List.length ‹c.rest = _›
    simp at hr
    have := hc <| List.length_pos_iff.mp (by omega)
    omega

theorem writings_writable (h : Reads c (.fault f) d) (hc : c.Within m) (hm : Numeral.Writable m) :
    ∀ w ∈ f.writings, w.subject.Writable := by
  cases h
  case literal s w _ _ hl _ hr _ =>
    have hr := congrArg List.length hr
    simp at hr
    have := hc <| List.length_pos_iff.mp (by omega)
    simp only [Fault.writings, List.forall_mem_cons]
    exact ⟨hm.mono (by omega), hm.mono (by omega), by simp⟩
  case character s x tl _ _ ht hr hp =>
    have hr := congrArg List.length hr
    simp [ht] at hr
    have := hc <| List.length_pos_iff.mp (by omega)
    simp only [Fault.writings, List.forall_mem_cons]
    exact ⟨hm.mono (by omega), by simp⟩

end Reads

-- The digit limit in a part of an evaluation, in a text of length `m`: it holds at the loop heads,
-- and a writing that is not within the limit is the value of a reduction. For a position not to be,
-- the length of the text itself would have to be over the limit. All results satisfy `post`.
structure Trace.Keeps (m : Nat) (p : Trace α) (post : α → Prop) : Prop where
  heads    : ∀ v ∈ p.heads, Numeral.Writable v
  writings : ∀ w ∈ p.writings, ¬w.subject.Writable →
    w.site = .value ∨ (w.site = .position ∧ ¬Numeral.Writable m)
  refused  : p.outcome = .error .digitLimit ↔
    ∃ w ∈ p.writings, w.site = .value ∧ ¬w.subject.Writable
  result   : ∀ a, p.outcome = .ok a → post a

namespace Trace.Keeps

variable {m : Nat} {p : Trace α} {f : α → Trace β} {post : α → Prop} {post' : β → Prop} {a : α}

theorem done (h : post a) : (Trace.done a).Keeps m post where
  heads    := nofun
  writings := nofun
  refused  := by simp [Trace.done]
  result b := by intro hb; cases hb; exact h

theorem fail (h : e ≠ .digitLimit) : (Trace.fail e : Trace α).Keeps m post where
  heads    := nofun
  writings := nofun
  refused  := by simp [Trace.fail, h]
  result   := nofun

theorem atHead (h : p.Keeps m post) (hv : Numeral.Writable v) : (p.atHead v).Keeps m post where
  heads    := by simpa [Trace.atHead, hv] using h.heads
  writings := h.writings
  refused  := h.refused
  result   := h.result

theorem write (h : p.Keeps m post) (hx : x.Writable) : (p.write site x).Keeps m post := by
  rw [Trace.write, if_pos hx]
  constructor
  case heads    => exact h.heads
  case writings => simpa [hx] using h.writings
  case refused  => simpa [hx] using h.refused
  case result   => exact h.result

theorem writeValue (h : x.Writable → p.Keeps m post) : (p.write .value x).Keeps m post := by
  by_cases hx : x.Writable
  case pos => exact (h hx).write hx
  case neg =>
    rw [Trace.write, if_neg hx]
    exact ⟨by simp, by simp, by simp [hx], by simp⟩

theorem andThen (h : p.Keeps m post) (hf : ∀ a, p.outcome = .ok a → post a → (f a).Keeps m post') :
    (p.andThen f).Keeps m post' := by
  rw [Trace.andThen]
  cases ho : p.outcome
  case error e =>
    have hr := h.refused
    rw [ho] at hr
    simp only [Trace.before, Trace.fail, List.append_nil]
    exact ⟨h.heads, h.writings, by simpa using hr, by simp⟩
  case ok a =>
    have hq := hf a ho <| h.result a ho
    have hr := h.refused
    simp [ho] at hr
    constructor
    case heads =>
      intro v hv
      exact List.mem_append.mp hv |>.elim (h.heads v) (hq.heads v)
    case writings =>
      intro w hw
      exact List.mem_append.mp hw |>.elim (h.writings w) (hq.writings w)
    case refused =>
      refine hq.refused.trans <| exists_congr fun w => and_congr_left fun hw => ?_
      have : w ∉ p.writings := fun hm => hw.right <| hr w hm hw.left
      simp [Trace.before, this]
    case result => exact hq.result

end Trace.Keeps

namespace View

variable {sw : Switches} {c : Cursor} {s : View} {v : Int} {o : Operator} {n m : Nat}

structure Valid (m : Nat) (s : View) : Prop where
  ahead  : ∀ l, s.ahead = some l → l.Writable
  cursor : s.cursor.Within m

theorem Valid.token (h : s.Valid m) : s.token.value.Writable := by
  rw [View.token]
  cases ha : s.ahead
  case none   => trivial
  case some l => exact Event.writable_lexeme.mpr <| h.ahead l ha

theorem log_keeps (h : s.Valid m) : (log sw s).Keeps m (Valid m) := by
  rw [log]
  split
  case isTrue  => exact .write (.done h) h.token
  case isFalse => exact .done h

theorem next_keeps (h : c.Within m) : (next sw c).Keeps m (Valid m) := by
  have ⟨r, d, hr⟩ := Reads.exists_reads c
  have hd := hr.within h
  rw [next, hr.read_eq]
  cases r
  case lexeme l => exact log_keeps ⟨fun _ hl => by cases hl; exact hr.writable, hd⟩
  case eof      => exact log_keeps ⟨by simp, hd⟩
  case fault f =>
    have hs := f.writings_site
    constructor
    case writings =>
      exact fun w hw hn => .inr ⟨hs w hw, fun hm => hn <| hr.writings_writable h hm w hw⟩
    case refused =>
      have (w : Writing) (hw : w ∈ f.writings) : w.site ≠ .value := by simp [hs w hw]
      simpa using fun w hw hv => absurd hv (this w hw)
    all_goals simp

theorem complain_keeps (h : s.Valid m) : (s.complain (α := α)).Keeps m post :=
  .write (.fail <| by simp) h.token

theorem operand_keeps (h : s.Valid m) :
    (operand sw s).Keeps m fun (n, t) => Numeral.Writable n ∧ t.Valid m := by
  rw [operand]
  split
  case h_1 ha => exact .andThen (next_keeps h.cursor) fun _ _ ht => .done ⟨h.ahead _ ha, ht⟩
  case h_2    => exact complain_keeps h

-- The value of a reduction is checked by no one but the writing of it.
theorem reduce_keeps (hv : Numeral.Writable v) (hn : Numeral.Writable n) :
    (reduce v o n).Keeps m Numeral.Writable := by
  rw [reduce]
  split
  case isTrue  => exact .write (.write (.fail <| by simp) hn) hv
  case isFalse => exact .write (.write (.writeValue fun hw => .done hw) hn) hv

theorem round_keeps (hv : Numeral.Writable v) (h : s.Valid m) :
    (round sw v o s).Keeps m fun (w, t) => Numeral.Writable w ∧ t.Valid m :=
  .andThen (next_keeps h.cursor) fun _ _ hs =>
  .andThen (operand_keeps hs) fun _ _ ⟨hn, ht⟩ =>
  .andThen (reduce_keeps hv hn) fun _ _ hw => .done ⟨hw, ht⟩

theorem leave_keeps (hv : Numeral.Writable v) (h : s.Valid m) :
    (leave v s).Keeps m Numeral.Writable := by
  rw [leave]
  split
  case isTrue  => exact .done hv
  case isFalse => exact complain_keeps h

theorem loop_keeps {v : Int} {s : View} (hv : Numeral.Writable v) (h : s.Valid m) :
    (loop sw v s).Keeps m Numeral.Writable := by
  by_cases ho : ∃ o, s.ahead = some (.operator o)
  case pos =>
    have ⟨o, ho⟩ := ho
    rw [loop_operator ho]
    -- The text of the round was written, and so `w` is within the limit again.
    refine .atHead (.andThen (round_keeps hv h) fun ⟨w, t⟩ hr ⟨hw, ht⟩ => ?_) hv
    have := round_length_lt hr
    exact loop_keeps hw ht
  case neg =>
    rw [loop_leave fun o h => ho ⟨o, h⟩]
    exact .atHead (leave_keeps hv h) hv
termination_by s.cursor.rest.length

end View

theorem Cursor.run_keeps {c : Cursor} (sw : Switches) (h : c.Within m) :
    (c.run sw).Keeps m Numeral.Writable :=
  .andThen (View.next_keeps h) fun _ _ hs =>
  .andThen (View.operand_keeps hs) fun _ _ ⟨hn, ht⟩ => View.loop_keeps hn ht

namespace Numeral

theorem le_value (digits : List Char) : Nat.pow 10 digits.length ≤ value ('1' :: digits) := by
  rw [value, Nat.ofDigitChars_cons, Nat.ofDigitChars_eq_ofDigitChars_zero]
  simp

def power (k : Nat) : List Char :=
  '1' :: List.replicate k '0'

variable {k : Nat}

theorem isDigit_of_mem_power {x : Char} (h : x ∈ power k) : x.isDigit := by
  simp only [power, List.mem_cons, List.mem_replicate] at h
  exact h.elim (fun h => h ▸ rfl) (fun h => h.right ▸ rfl)

variable (hk : maxDigits = k + 1)

include hk

theorem readable_power : Readable (power k) := by
  simp [Readable, power, hk]

theorem not_writable_power : ¬Writable (value (power k) * 10) := by
  have h := le_value (List.replicate k '0')
  have hp : Nat.pow 10 (k + 1) = Nat.pow 10 k * 10 := rfl
  simp only [Writable, Int.natAbs_mul, Int.natAbs_natCast, hk, hp]
  rw [List.length_replicate] at h
  exact Nat.not_lt_of_le <| Nat.mul_le_mul_right 10 h

end Numeral

def detour (k : Nat) : String :=
  String.ofList (Numeral.power k ++ ['*', '1', '0', '/', '1', '0'])

theorem layout_detour {k : Nat} (hk : Numeral.maxDigits = k + 1) :
    Layout [.integer (Numeral.value (Numeral.power k)), .operator .times, .integer 10,
      .operator .divide, .integer 10] (detour k).toList := by
  have hp := Spelling.integer _ (fun _ => Numeral.isDigit_of_mem_power) (Numeral.readable_power hk)
  have ten : Spelling ['1', '0'] (.integer 10) := .integer ['1', '0'] (by simp) (by decide)
  rw [detour, String.toList_ofList]
  refine .cons [] _ _ nofun hp trivial ?_
  refine .cons [] _ _ nofun (.operator .times) trivial ?_
  refine .cons [] _ _ nofun ten trivial ?_
  refine .cons [] _ _ nofun (.operator .divide) trivial ?_
  exact .cons [] _ _ nofun ten trivial <| .nil [] nofun

theorem Evaluation.overflow {feed : Feed} {n m : Nat} {o : Operator} {ls : List Lexeme}
    (hn : Numeral.Writable n) (hm : Numeral.Writable m) (hz : ¬(o = .divide ∧ m = 0))
    (h : ¬Numeral.Writable (o.exact n m))
    (hl : feed.lexemes = .integer n :: .operator o :: .integer m :: ls) (hf : feed.fault? = none) :
    (ofFeed none feed).outcome = .error .digitLimit := by
  have hc : (Left.waiting n o).close m = .error .digitLimit := by
    rw [Left.close_waiting hn hm, if_neg hz, if_neg h]
  match feed with
  | .lexeme _ _ (.lexeme _ _ (.lexeme _ _ (.eof _)))
  | .lexeme _ _ (.lexeme _ _ (.lexeme _ _ (.lexeme _ _ _))) =>
    cases hl
    simp [ofFeed, operand, operator, Left.close.eq_1, hc]
  | .lexeme _ _ (.lexeme _ _ (.eof _))
  | .lexeme _ _ (.eof _)
  | .eof _ => cases hl
  | .lexeme _ _ (.lexeme _ _ (.lexeme _ _ (.fault _ _)))
  | .lexeme _ _ (.lexeme _ _ (.fault _ _))
  | .lexeme _ _ (.fault _ _)
  | .fault _ _ => cases hf

theorem evaluate_detour {k : Nat} (sw : Switches) (hk : Numeral.maxDigits = k + 1) :
    (evaluate sw (detour k)).outcome = .error .digitLimit := by
  have hr : (Cursor.start (detour k).toList).rest = (detour k).toList ++ [] := by
    rw [List.append_nil]
    rfl
  have ⟨hl, hf⟩ := layout_detour hk |>.feed hr nofun
  have hw := (Cursor.start (detour k).toList).feed_limited
  simp only [Feed.Limited, hl, List.forall_mem_cons] at hw
  rw [evaluate_outcome]
  exact Evaluation.overflow (o := .times) hw.left hw.right.right.left (by simp)
    (Numeral.not_writable_power hk) hl hf

theorem exists_overflow (sw : Switches) :
    ∃ line, (evaluate sw line).outcome = .error .digitLimit :=
  ⟨detour 4299, evaluate_detour sw rfl⟩

theorem Cursor.read_writable {c : Cursor} {t : Token} (h : c.read.1.token = .ok t)
    (hk : t.kind = .integer) : ∃ n : Int, t.value = .integer n ∧ 0 ≤ n ∧ Numeral.Writable n := by
  have ⟨r, d, hr⟩ := Reads.exists_reads c
  rw [hr.read_eq] at h
  cases r <;> cases h
  case lexeme l =>
    cases l <;> cases hk
    case integer n => exact ⟨n, rfl, Int.natCast_nonneg n, hr.writable⟩
  case eof => cases hk

theorem Cursor.literal_writable {c : Cursor} (h : c.literal.1 = .ok n) : Numeral.Writable n := by
  rw [literal] at h
  split at h
  case isTrue hr  => cases h; exact Numeral.writable_value (fun _ => List.mem_takeWhile_imp) hr
  case isFalse => cases h

theorem evaluate_writable {sw : Switches} {line : String} (h : (evaluate sw line).outcome = .ok v) :
    Numeral.Writable v := by
  have hr := Cursor.run_outcome sw (Calculator.ofText line)
  exact (Cursor.run_keeps sw <| Cursor.seek_within line.toList 0).result v <| hr.trans h

theorem Verdict.ofOutcome_ok {v : Int} (h : Numeral.Writable v) :
    ofOutcome (.ok v) = .value (Numeral.decimal v) := by
  unfold ofOutcome
  simp only [Numeral.text?_eq h]

theorem Verdict.eq_error_of_stop {r : Except Error Int} (hr : ∀ v, r = .ok v → Numeral.Writable v)
    (h : ofOutcome r = .stop e) : r = .error e := by
  unfold ofOutcome at h
  cases r
  case ok v =>
    simp only [Numeral.text?_eq (hr v rfl)] at h
    cases h
  case error =>
    simp only at h
    split at h <;> cases h
    rfl

theorem Session.failed {sw : Switches} {prompt : String} {lines : List String}
    (h : (run sw prompt lines).ending = .failed f) :
    ∃ line ∈ lines, ∃ e, f = .error e ∧ (evaluate sw line).outcome = .error e := by
  induction lines
  case nil => cases h
  case cons line lines hi =>
    rw [run] at h
    split at h
    case h_1 =>
      have ⟨l, hl, he⟩ := hi h
      exact ⟨l, .tail _ hl, he⟩
    case h_2 printed e hr =>
      cases h
      refine ⟨line, .head _, e, rfl, Verdict.eq_error_of_stop (fun _ => evaluate_writable) ?_⟩
      simp only [reply] at hr
      split at hr <;> cases hr
      assumption

theorem Batch.failed {sw : Switches} {lines : List String}
    (h : (run sw lines).ending = .failed f) :
    ∃ line ∈ lines, ∃ e, f = .error e ∧ (evaluate sw line).outcome = .error e := by
  induction lines
  case nil => cases h
  case cons line lines hi =>
    simp only [run] at h
    split at h
    case h_1 =>
      have ⟨l, hl, he⟩ := hi h
      exact ⟨l, .tail _ hl, he⟩
    case h_2 => cases h
    case h_3 e he =>
      cases h
      exact ⟨line, .head _, e, rfl, Verdict.eq_error_of_stop (fun _ => evaluate_writable) he⟩

-- Every integer token is within the limit, and so is the running result at every loop head. What
-- can be refused is the value of a reduction alone, and no value that is returned.
theorem digit_limit (sw : Switches) (text : List Char) (p : Nat) :
    (∀ t, (Cursor.seek text p).read.1.token = .ok t → t.kind = .integer →
      ∃ n : Int, t.value = .integer n ∧ 0 ≤ n ∧ Numeral.Writable n) ∧
    (∀ n, (Cursor.seek text p).literal.1 = .ok n → Numeral.Writable n) ∧
    (∀ current, ((Cursor.seek text p).run sw).outcome =
      ((Calculator.mk (.seek text p) current).expression.answer sw).outcome) ∧
    (∀ v ∈ ((Cursor.seek text p).run sw).heads, Numeral.Writable v) ∧
    (∀ w ∈ ((Cursor.seek text p).run sw).writings, ¬w.subject.Writable →
      w.site = .value ∨ (w.site = .position ∧ ¬Numeral.Writable text.length)) ∧
    (((Cursor.seek text p).run sw).outcome = .error .digitLimit ↔
      ∃ w ∈ ((Cursor.seek text p).run sw).writings, w.site = .value ∧ ¬w.subject.Writable) ∧
    (∃ line, (evaluate sw line).outcome = .error .digitLimit) ∧
    (∀ line v, (evaluate sw line).outcome = .ok v →
      Verdict.ofOutcome (evaluate sw line).outcome = .value (Numeral.decimal v)) ∧
    (∀ prompt lines f, (Session.run sw prompt lines).ending = .failed f →
      ∃ line ∈ lines, ∃ e, f = .error e ∧ (evaluate sw line).outcome = .error e) ∧
    (∀ lines f, (Batch.run sw lines).ending = .failed f →
      ∃ line ∈ lines, ∃ e, f = .error e ∧ (evaluate sw line).outcome = .error e) := by
  have h := Cursor.run_keeps sw (Cursor.seek_within text p)
  refine ⟨fun t => Cursor.read_writable, fun n => Cursor.literal_writable, ?_, h.heads, h.writings,
    h.refused, exists_overflow sw, ?_, ?_, ?_⟩
  case refine_1 => exact fun current => Cursor.run_outcome sw ⟨.seek text p, current⟩
  case refine_2 =>
    intro line v hv
    rw [hv]
    exact Verdict.ofOutcome_ok <| evaluate_writable hv
  case refine_3 => exact fun _ _ _ => Session.failed
  case refine_4 => exact fun _ _ => Batch.failed

end Abacus
