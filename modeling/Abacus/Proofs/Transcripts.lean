import Abacus.Proofs.Limit
import Abacus.Proofs.Lines
import Abacus.Proofs.Offence
import Abacus.Proofs.Readings

namespace Abacus

-- All errors of a line are reported to the user, but for one.
theorem Offence.reported (h : Offence ts i c err) :
    err = .digitLimit ∨ ∃ r, err.report? = some r := by
  cases h
  case fault                  => exact .inr ⟨_, rfl⟩
  case misplaced              => exact .inr ⟨_, rfl⟩
  case reduction k hi ha hf =>
    cases hf
    case division => exact .inr ⟨_, rfl⟩
    case limit    => exact .inl rfl

variable {sw : Switches} {line : String} {err : Error} {v : Int}

theorem evaluate_reported (h : (evaluate sw line).outcome = .error err) :
    err = .digitLimit ∨ ∃ r, err.report? = some r := by
  rw [evaluate_outcome] at h
  have ⟨i, c, ho, _⟩ := Feed.decides line |>.error_iff.mp h
  exact ho.reported

def told (sw : Switches) (line : String) : String :=
  (evaluate sw line).printed ++
    match (evaluate sw line).outcome with
    | .ok v      => Numeral.decimal v ++ "\n"
    | .error err => err.report?.elim "" (·.display ++ "\n")

theorem told_value (h : (evaluate sw line).outcome = .ok v) :
    told sw line = (evaluate sw line).printed ++ Numeral.decimal v ++ "\n" := by
  simp [told, h, String.append_assoc]

theorem told_report {r : Report} (h : (evaluate sw line).outcome = .error err)
    (hr : err.report? = some r) :
    told sw line = (evaluate sw line).printed ++ r.display ++ "\n" := by
  simp [told, h, hr, String.append_assoc]

theorem told_limit (h : (evaluate sw line).outcome = .error .digitLimit) :
    told sw line = (evaluate sw line).printed := by
  simp [told, h, Error.report?]

theorem verdict_value (h : (evaluate sw line).outcome = .ok v) :
    Verdict.ofOutcome (evaluate sw line).outcome = .value (Numeral.decimal v) := by
  rw [h]
  exact Verdict.ofOutcome_ok <| evaluate_writable h

theorem verdict_report {r : Report} (h : (evaluate sw line).outcome = .error err)
    (hr : err.report? = some r) :
    Verdict.ofOutcome (evaluate sw line).outcome = .report r.display := by
  rw [h]
  unfold Verdict.ofOutcome
  simp only [hr]

theorem verdict_limit (h : (evaluate sw line).outcome = .error .digitLimit) :
    Verdict.ofOutcome (evaluate sw line).outcome = .stop .digitLimit := by
  rw [h]
  rfl

namespace Transcript

@[simp]
theorem before_ended (s t : String) (e : Ending) : (ended t e).before s = ended (s ++ t) e :=
  rfl

theorem before_before (s t : String) (u : Transcript) :
    (u.before t).before s = u.before (s ++ t) := by
  simp [before, String.append_assoc]

@[simp]
theorem before_empty (t : Transcript) : t.before "" = t := by
  simp [before]

end Transcript

namespace Session

def block (sw : Switches) (prompt line : String) : String :=
  prompt ++ told sw line

variable {prompt : String} {lines more : List String}

theorem reply_told (h : (evaluate sw line).outcome ≠ .error .digitLimit) :
    reply sw line = (told sw line, none) := by
  cases ho : (evaluate sw line).outcome
  case ok v => simp [reply, verdict_value ho, told_value ho]
  case error err =>
    obtain ⟨r, hr⟩ := evaluate_reported ho |>.resolve_left fun he => h (he ▸ ho)
    simp [reply, verdict_report ho hr, told_report ho hr]

theorem reply_limit (h : (evaluate sw line).outcome = .error .digitLimit) :
    reply sw line = ((evaluate sw line).printed, some .digitLimit) := by
  simp [reply, verdict_limit h]

theorem run_cons (h : (evaluate sw line).outcome ≠ .error .digitLimit) :
    run sw prompt (line :: more) = (run sw prompt more).before (block sw prompt line) := by
  simp [run, reply_told h, block]

theorem run_limit (h : (evaluate sw line).outcome = .error .digitLimit) :
    run sw prompt (line :: more) =
      .ended (prompt ++ (evaluate sw line).printed) (.failed (.error .digitLimit)) := by
  simp [run, reply_limit h]

theorem run_append (h : ∀ line ∈ lines, (evaluate sw line).outcome ≠ .error .digitLimit) :
    run sw prompt (lines ++ more) =
      (run sw prompt more).before (String.join (lines.map (block sw prompt))) := by
  induction lines
  case nil => simp
  case cons line lines hi =>
    simp only [List.forall_mem_cons] at h
    rw [List.cons_append, run_cons h.left, hi h.right, Transcript.before_before]
    simp

theorem run_eq (h : ∀ line ∈ lines, (evaluate sw line).outcome ≠ .error .digitLimit) :
    run sw prompt lines =
      .ended (String.join (lines.map (block sw prompt)) ++ prompt) (.returned none) := by
  have : run sw prompt (lines ++ []) = _ := run_append h
  simpa [run] using this

end Session

-- A session prints a block for each line, in order, and then the prompt once more. A line that goes
-- over the digit limit ends it: nothing more is printed than the log of that line.
theorem session_transcript (sw : Switches) (prompt input : String) :
    (∀ lines, Text.typedLines input = lines ↔
      Text.Lines.Typed input.toList (lines.map String.toList)) ∧
    ((∀ line ∈ Text.typedLines input, (evaluate sw line).outcome ≠ .error .digitLimit) →
      Session.ofInput sw prompt input =
        ⟨String.join ((Text.typedLines input).map (Session.block sw prompt)) ++ prompt, "",
          .returned none⟩) ∧
    (∀ lines line more, Text.typedLines input = lines ++ line :: more →
      (∀ l ∈ lines, (evaluate sw l).outcome ≠ .error .digitLimit) →
      (evaluate sw line).outcome = .error .digitLimit →
      Session.ofInput sw prompt input =
        ⟨String.join (lines.map (Session.block sw prompt)) ++ (prompt ++ (evaluate sw line).printed),
          "", .failed (.error .digitLimit)⟩) ∧
    (∀ line v, (evaluate sw line).outcome = .ok v →
      Session.block sw prompt line =
        prompt ++ ((evaluate sw line).printed ++ Numeral.decimal v ++ "\n")) ∧
    (∀ line err, (evaluate sw line).outcome = .error err → err ≠ .digitLimit →
      ∃ r, err.report? = some r ∧
        Session.block sw prompt line =
          prompt ++ ((evaluate sw line).printed ++ (r.category.name ++ ": " ++ r.text) ++ "\n")) ∧
    ∀ other, (Text.typedLines other).Perm (Text.typedLines input) →
      (∀ line ∈ Text.typedLines input, (evaluate sw line).outcome ≠ .error .digitLimit) →
      ((Text.typedLines other).map (Session.block sw prompt)).Perm
          ((Text.typedLines input).map (Session.block sw prompt)) ∧
        Session.ofInput sw prompt other =
          ⟨String.join ((Text.typedLines other).map (Session.block sw prompt)) ++ prompt, "",
            .returned none⟩ := by
  refine ⟨fun _ => Text.typedLines_eq, Session.run_eq, ?_, ?_, ?_, ?_⟩
  case refine_1 =>
    intro lines line more hi hl h
    rw [Session.ofInput, hi, Session.run_append hl, Session.run_limit h, Transcript.before_ended]
    rfl
  case refine_2 =>
    intro line v h
    rw [Session.block, told_value h]
  case refine_3 =>
    intro line err h he
    have ⟨r, hr⟩ := evaluate_reported h |>.resolve_left he
    exact ⟨r, hr, by rw [Session.block, told_report h hr, Report.display]⟩
  case refine_4 =>
    intro other hp h
    exact ⟨hp.map _, Session.run_eq fun line hl => h line <| hp.mem_iff.mp hl⟩

namespace Batch

variable {lines more : List String}

theorem run_cons (h : (evaluate sw line).outcome = .ok v) :
    run sw (line :: more) = (run sw more).before (told sw line) := by
  simp [run, verdict_value h, told_value h]

theorem run_report {r : Report} (h : (evaluate sw line).outcome = .error err)
    (hr : err.report? = some r) : run sw (line :: more) = .ended (told sw line) (.exited 1) := by
  simp [run, verdict_report h hr, told_report h hr]

theorem run_limit (h : (evaluate sw line).outcome = .error .digitLimit) :
    run sw (line :: more) =
      .ended (evaluate sw line).printed (.failed (.error .digitLimit)) := by
  simp [run, verdict_limit h]

theorem run_append (h : ∀ line ∈ lines, ∃ v, (evaluate sw line).outcome = .ok v) :
    run sw (lines ++ more) = (run sw more).before (String.join (lines.map (told sw))) := by
  induction lines
  case nil => simp
  case cons line lines hi =>
    simp only [List.forall_mem_cons] at h
    have ⟨v, hv⟩ := h.left
    rw [List.cons_append, run_cons hv, hi h.right, Transcript.before_before]
    simp

theorem run_eq (h : ∀ line ∈ lines, ∃ v, (evaluate sw line).outcome = .ok v) :
    run sw lines = .ended (String.join (lines.map (told sw))) (.returned none) := by
  have : run sw (lines ++ []) = _ := run_append h
  simpa [run] using this

theorem run_error (h : (evaluate sw line).outcome = .error err) :
    run sw (line :: more) = run sw [line] := by
  obtain he | ⟨r, hr⟩ := evaluate_reported h
  case inl => rw [run_limit (he ▸ h), run_limit (he ▸ h)]
  case inr => rw [run_report h hr, run_report h hr]

theorem run_failed (h : ∃ line ∈ lines, ∃ err, (evaluate sw line).outcome = .error err) :
    run sw (lines ++ more) = run sw lines := by
  induction lines
  case nil => simp at h
  case cons line lines hi =>
    rw [List.cons_append]
    cases ho : (evaluate sw line).outcome
    case ok v =>
      have := by simpa [ho] using h
      rw [run_cons ho, run_cons ho, hi this]
    case error => exact (run_error ho).trans (run_error ho).symm

theorem run_congr {lines' : List String}
    (h : List.Forall₂ (fun k l => evaluate sw k = evaluate sw l) lines lines') :
    run sw lines = run sw lines' := by
  induction h
  case nil          => rfl
  case cons h _ hi => simp only [run, h, hi]

theorem ofContent_eq (sw : Switches) (content : String) :
    ofContent sw content = run sw (Text.keptLines content) := by
  refine (run_congr ?_).symm
  rw [Text.keptLines, Text.fileLines, List.forall₂_map_left_iff, List.forall₂_map_right_iff]
  refine (Text.Lines.cut_newline _).imp fun k l h => ?_
  cases h
  case inl h => rw [h]
  case inr h =>
    have he : Ended ['\n'] := by simp [Ended, Cursor.isTerminator]
    rw [h, String.ofList_append, evaluate_append sw _ he]

end Batch

-- A batch prints the lines that have a value, in order. The first line that has none ends it, with
-- an exit code if the line can be reported, and nothing behind that line has a part in it.
theorem batch_transcript (sw : Switches) (content : String) :
    (∀ lines, Text.keptLines content = lines ↔
      Text.Lines.Filed content.toList (lines.map String.toList)) ∧
    (∀ line v, (evaluate sw line).outcome = .ok v →
      told sw line = (evaluate sw line).printed ++ Numeral.decimal v ++ "\n") ∧
    ((∀ line ∈ Text.keptLines content, ∃ v, (evaluate sw line).outcome = .ok v) →
      Batch.ofContent sw content =
        ⟨String.join ((Text.keptLines content).map (told sw)), "", .returned none⟩) ∧
    (∀ good bad more err, Text.keptLines content = good ++ bad :: more →
      (∀ line ∈ good, ∃ v, (evaluate sw line).outcome = .ok v) →
      (evaluate sw bad).outcome = .error err →
      (∃ r, err.report? = some r ∧ Batch.ofContent sw content =
        ⟨String.join (good.map (told sw)) ++
          ((evaluate sw bad).printed ++ (r.category.name ++ ": " ++ r.text) ++ "\n"), "",
          .exited 1⟩) ∨
      (err = .digitLimit ∧ Batch.ofContent sw content =
        ⟨String.join (good.map (told sw)) ++ (evaluate sw bad).printed, "",
          .failed (.error .digitLimit)⟩)) ∧
    ((∀ x ∈ content.toList.getLast?, x = '\n' ∨ x = '\r') →
      (∃ line ∈ Text.keptLines content, ∃ err, (evaluate sw line).outcome = .error err) →
      ∀ more more', Batch.ofContent sw (content ++ more) = Batch.ofContent sw (content ++ more')) := by
  refine ⟨fun _ => Text.keptLines_eq, fun _ _ => told_value, ?_, ?_, ?_⟩
  case refine_1 => exact fun h => Batch.ofContent_eq sw content ▸ Batch.run_eq h
  case refine_2 =>
    intro good bad more err hc hg h
    rw [Batch.ofContent_eq, hc, Batch.run_append hg]
    obtain he | ⟨r, hr⟩ := evaluate_reported h
    case inl =>
      subst he
      exact .inr ⟨rfl, by rw [Batch.run_limit h]; rfl⟩
    case inr => exact .inl ⟨r, hr, by rw [Batch.run_report h hr, told_report h hr]; rfl⟩
  case refine_3 =>
    intro he hf more more'
    have (m : String) : Batch.ofContent sw (content ++ m) = Batch.ofContent sw content := by
      have ht : ∀ x ∈ content.toList.getLast?, Cursor.isTerminator x := by
        simpa [Cursor.isTerminator] using he
      obtain ⟨rest, hr⟩ := Text.keptLines_append ht m
      rw [Batch.ofContent_eq, Batch.ofContent_eq, hr, Batch.run_failed hf]
    rw [this, this]

end Abacus
