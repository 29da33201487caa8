import Abacus.Proofs.Logs
import Abacus.Proofs.Recovery
import Abacus.Proofs.Transcripts

namespace Abacus

namespace Text

-- The code points that a terminal obeys, or that turn or break the line in which they stand, as
-- ranges with both ends included: the controls, the escape among them, the signs and controls of
-- the writing direction, and the separators of lines and paragraphs.
def obeyed : List (Nat × Nat) :=
  [(0x0, 0x1F), (0x7F, 0x9F), (0x61C, 0x61C), (0x200E, 0x200F), (0x2028, 0x202E), (0x2066, 0x2069)]

def Obeyed (c : Char) : Prop :=
  ∃ r ∈ obeyed, r.1 ≤ c.toNat ∧ c.toNat ≤ r.2

theorem Obeyed.not_isPrintable {c : Char} (h : Obeyed c) : ¬isPrintable c := by
  have hs : ∀ r ∈ obeyed, ∃ u ∈ unprintable, u.1 ≤ r.1 ∧ r.2 ≤ u.2 := by decide +kernel
  have ⟨r, hr, h₁, h₂⟩ := h
  have ⟨u, hu, h₃, h₄⟩ := hs r hr
  simp only [isPrintable, Bool.not_eq_true', Bool.not_eq_false, List.any_eq_true, Bool.and_eq_true,
    decide_eq_true_eq]
  exact ⟨u, hu, Nat.le_trans h₃ h₁, Nat.le_trans h₂ h₄⟩

namespace Printable

variable {s : String}

theorem not_obeyed (h : Printable s) : ∀ x ∈ s.toList, ¬Obeyed x := fun x hx ho =>
  ho.not_isPrintable (h x hx)

theorem return_notMem (h : Printable s) : '\r' ∉ s.toList := fun hr =>
  absurd (h _ hr) (by decide +kernel)

end Printable

section

variable {es fs : List String}

theorem ofLines_append : ofLines (es ++ fs) = ofLines es ++ ofLines fs := by
  simp [ofLines]

theorem ofLines_flatMap {f : String → List String} :
    ofLines (es.flatMap f) = String.join (es.map fun e => ofLines (f e)) := by
  induction es
  case nil => rfl
  case cons e es hi => simp [ofLines_append, hi]

theorem Lines.unify_eq {cs : List Char} (h : '\r' ∉ cs) : unify cs = cs := by
  induction cs
  case nil => rfl
  case cons c cs hi =>
    simp only [List.mem_cons, not_or] at h
    rw [unify_cons (absurd · (Ne.symm h.left)), if_neg (Ne.symm h.left), hi h.right]

theorem return_notMem_ofLines (h : ∀ e ∈ es, Printable e) : '\r' ∉ (ofLines es).toList := by
  induction es
  case nil => nofun
  case cons e es hi =>
    rw [List.forall_mem_cons] at h
    simpa [ofLines] using ⟨h.left.return_notMem, by simpa [ofLines] using hi h.right⟩

end

-- The text `s` is made of the entries `es`, and can be read as no other ones. Each is a line of it,
-- in whatever way lines are ended.
structure Itemized (s : String) (es : List String) : Prop where
  eq        : s = ofLines es
  printable : ∀ e ∈ es, Printable e
  typed     : typedLines s = es
  filed     : fileLines s = es
  unique    : ∀ fs, (∀ f ∈ fs, Printable f) → s = ofLines fs → fs = es

theorem Itemized.ofLines {es : List String} (h : ∀ e ∈ es, Printable e) :
    Itemized (ofLines es) es := by
  have ht {fs : List String} (h : ∀ f ∈ fs, Printable f) : typedLines (Text.ofLines fs) = fs :=
    typedLines_ofLines fun f hf => (h f hf).newline_notMem
  refine ⟨rfl, h, ht h, ?_, fun fs hf he => ?_⟩
  case refine_1 =>
    rw [fileLines, Lines.unify_eq (return_notMem_ofLines h)]
    exact ht h
  case refine_2 => rw [←ht hf, ←he, ht h]

end Text

open Text

theorem Code.text_printable (c : Code) : Printable c.text := by
  cases c <;> exact .ascii (by decide)

theorem Category.name_printable (c : Category) : Printable c.name := by
  cases c <;> exact .ascii (by decide)

theorem Fault.detail_printable : (f : Fault) → Printable f.detail
  | character c column => .append (.append (.append (.ascii (by decide)) (.quoted c.toString))
      (.ascii (by decide))) (.natural column)
  | literal digits column => .append (.append (.append (.ascii (by decide)) (.natural digits))
      (.ascii (by decide))) (.natural column)

namespace Report

theorem display_printable {r : Report} (h : ∀ s, r.message = some s → Printable s) :
    Printable r.display := by
  refine .append (.append r.category.name_printable (.ascii (by decide))) ?_
  rw [text]
  cases hm : r.message
  case none   => exact .ascii (by decide)
  case some s => exact h s hm

theorem malformed_printable {detail : String} (h : Printable detail) :
    Printable (malformed (some detail)).display := by
  refine display_printable fun s hs => ?_
  by_cases hd : detail = ""
  case pos =>
    subst hd
    cases hs
    exact Code.text_printable _
  case neg =>
    rw [malformed_some hd] at hs
    cases hs
    exact .append (.append (.ascii (by decide)) h) (.ascii (by decide))

theorem misplaced_printable (code : Code) (token : Option Token) :
    Printable (misplaced code token).display := by
  refine display_printable fun s hs => ?_
  cases hs
  refine .append (.append code.text_printable (.ascii (by decide))) ?_
  cases token
  case none   => exact .ascii (by decide)
  case some t => exact t.written_printable

theorem division_printable (sign : Token) (left : Int) :
    Printable (division sign left).display := by
  refine display_printable fun s hs => ?_
  cases hs
  exact .append (.append (.append (.append (Code.text_printable _) (.ascii (by decide)))
    (.decimal left)) (.ascii (by decide))) (.decimal 0)

end Report

theorem Error.display_printable {e : Error} {r : Report} (h : e.report? = some r) :
    Printable r.display := by
  cases e <;> cases h
  case lexical f           => exact Report.malformed_printable f.detail_printable
  case misplaced code t    => exact Report.misplaced_printable code t
  case divisionByZero t v  => exact Report.division_printable t v

def Verdict.shown : Verdict → List String
  | value s | report s => [s]
  | stop _             => []

theorem Verdict.shown_printable (o : Except Error Int) :
    ∀ s ∈ (ofOutcome o).shown, Printable s := by
  unfold ofOutcome
  intro s hs
  split at hs
  case h_1 v =>
    split at hs
    case h_1 t ht =>
      cases List.mem_singleton.mp hs
      rw [Numeral.text?] at ht
      split at ht <;> cases ht
      exact .decimal v
    case h_2 => cases hs
  case h_2 e =>
    split at hs
    case h_1 r hr =>
      cases List.mem_singleton.mp hs
      exact e.display_printable hr
    case h_2 => cases hs

section

variable (sw : Switches) (line : String)

theorem log_printable : ∀ entry ∈ log sw line, Printable entry := by
  intro entry he
  rw [log_eq] at he
  have ⟨e, _, he⟩ := List.mem_map.mp he
  exact he ▸ e.written_printable

def entries : List String :=
  log sw line ++ (Verdict.ofOutcome (evaluate sw line).outcome).shown

theorem entries_printable : ∀ entry ∈ entries sw line, Printable entry := by
  intro entry he
  rw [entries, List.mem_append] at he
  cases he
  case inl he => exact log_printable sw line entry he
  case inr he => exact Verdict.shown_printable _ _ he

theorem told_eq : told sw line = ofLines (entries sw line) := by
  rw [entries, ofLines_append, ofLines_log]
  cases ho : (evaluate sw line).outcome
  case ok v =>
    simp [told_value ho, ←ho, verdict_value ho, Verdict.shown, ofLines, String.append_assoc]
  case error err =>
    obtain he | ⟨r, hr⟩ := evaluate_reported ho
    case inl =>
      subst he
      simp [told_limit ho, ←ho, verdict_limit ho, Verdict.shown, ofLines]
    case inr =>
      simp [told_report ho hr, ←ho, verdict_report ho hr, Verdict.shown, ofLines,
        String.append_assoc]

end

def upTo (p : String → Bool) : List String → List String
  | []            => []
  | line :: lines => if p line then [line] else line :: upTo p lines

variable {sw : Switches} {lines : List String}

namespace Session

def reached (sw : Switches) (lines : List String) : List String :=
  upTo (fun line => (evaluate sw line).outcome = .error .digitLimit) lines

theorem run_stdout (prompt : String) :
    (run sw prompt lines).stdout =
      String.join ((reached sw lines).map fun line => prompt ++ ofLines (entries sw line)) ++
        if (run sw prompt lines).ending = .returned none then prompt else "" := by
  induction lines
  case nil => simp [run, reached, upTo, Transcript.ended]
  case cons line lines hi =>
    rw [reached, upTo]
    by_cases h : (evaluate sw line).outcome = .error .digitLimit
    case pos => simp [run_limit h, h, ←told_eq, told_limit h, Transcript.ended]
    case neg =>
      rw [run_cons h, if_neg (by simpa using h)]
      simp [Transcript.before, hi, block, told_eq, String.append_assoc, reached]

end Session

namespace Batch

def reached (sw : Switches) (lines : List String) : List String :=
  upTo (fun line => (evaluate sw line).outcome.toOption = none) lines

theorem run_stdout :
    (run sw lines).stdout = ofLines ((reached sw lines).flatMap (entries sw)) := by
  induction lines
  case nil => rfl
  case cons line lines hi =>
    rw [reached, upTo]
    cases ho : (evaluate sw line).outcome
    case ok v =>
      rw [run_cons ho, if_neg (by simp [Except.toOption]), ←reached, List.flatMap_cons,
        ofLines_append, ←told_eq, ←hi]
      rfl
    case error err =>
      rw [if_pos (by simp [Except.toOption]), List.flatMap_singleton, ←told_eq]
      obtain he | ⟨r, hr⟩ := evaluate_reported ho
      case inl =>
        subst he
        rw [run_limit ho, told_limit ho]
        rfl
      case inr => rw [run_report ho hr]; rfl

end Batch

-- Of what is logged of a line and of the verdict on it, each character can be printed, whatever the
-- line holds. So each of them is a line of the output, and the output of a batch, or of a session
-- but for its prompts, can be read as no other entries.
theorem output_itemized (sw : Switches) :
    (∀ line, Itemized (evaluate sw line).printed
      (((Evaluation.ofFeed none (.ofText line)).events.filter sw.shows).map Event.written)) ∧
    (∀ line, ∀ entry ∈ entries sw line, ∀ x ∈ entry.toList, isPrintable x ∧ ¬Obeyed x) ∧
    (∀ prompt input, (Session.ofInput sw prompt input).stdout =
      String.join ((Session.reached sw (typedLines input)).map fun line =>
          prompt ++ ofLines (entries sw line)) ++
        if (Session.ofInput sw prompt input).ending = .returned none then prompt else "") ∧
    (∀ input, Itemized (Session.ofInput sw "" input).stdout
      ((Session.reached sw (typedLines input)).flatMap (entries sw))) ∧
    ∀ content, Itemized (Batch.ofContent sw content).stdout
      ((Batch.reached sw (fileLines content)).flatMap (entries sw)) := by
  have he (lines : List String) : ∀ e ∈ lines.flatMap (entries sw), Printable e := by
    intro e he
    have ⟨line, _, he⟩ := List.mem_flatMap.mp he
    exact entries_printable sw line e he
  refine ⟨fun line => ?_, fun line entry hl x hx => ?_, fun _ _ => Session.run_stdout _,
    fun input => ?_, fun content => ?_⟩
  case refine_1 =>
    rw [←log_eq, ←ofLines_log]
    exact .ofLines (log_printable sw line)
  case refine_2 =>
    have hp := entries_printable sw line entry hl
    exact ⟨hp x hx, hp.not_obeyed x hx⟩
  case refine_3 =>
    have hs : (Session.ofInput sw "" input).stdout = _ := Session.run_stdout ""
    simp only [String.empty_append, ite_self, String.append_empty, ←ofLines_flatMap] at hs
    exact hs ▸ .ofLines (he _)
  case refine_4 => exact Batch.run_stdout ▸ .ofLines (he _)

example : entries .off "1\x1b[2J" =
    ["LexError: Syntax Error (unexpected '\\x1b' at column 2)"] := by
  decide +kernel

end Abacus
