import Abacus.Proofs.Transcripts

namespace Abacus

def Overflows (line : String) : Prop :=
  ∃ i, First (Feed.ofText line).readings i 1 .digitLimit

variable (sw : Switches) {line : String}

theorem evaluate_eq_digitLimit :
    (evaluate sw line).outcome = .error .digitLimit ↔ Overflows line := by
  rw [evaluate_outcome, (Feed.decides line).error_iff]
  constructor
  case mp =>
    intro ⟨i, c, ho, hf⟩
    cases ho
    case reduction hi ha he => exact ⟨i, .reduction _ hi ha he, hf⟩
  case mpr => exact fun ⟨i, hf⟩ => ⟨i, 1, hf⟩

theorem told_cases (h : ¬Overflows line) :
    (∃ v, (evaluate .off line).outcome = .ok v ∧ told .off line = Numeral.decimal v ++ "\n") ∨
    (∃ err r, (evaluate .off line).outcome = .error err ∧ err.report? = some r ∧
      told .off line = r.display ++ "\n") := by
  have hp := evaluate_off_printed line
  cases ho : (evaluate .off line).outcome
  case ok v => exact .inl ⟨v, rfl, by rw [told_value ho, hp, String.empty_append]⟩
  case error err =>
    obtain ⟨r, hr⟩ := evaluate_reported ho |>.resolve_left fun he =>
      h <| evaluate_eq_digitLimit .off |>.mp (he ▸ ho)
    exact .inr ⟨err, r, rfl, hr, by rw [told_report ho hr, hp, String.empty_append]⟩

theorem Session.run_ending {prompt : String} {lines : List String} :
    (run sw prompt lines).ending = .returned none ↔ ∀ line ∈ lines, ¬Overflows line := by
  induction lines
  case nil => simp [run, Transcript.ended]
  case cons line lines hi =>
    rw [List.forall_mem_cons, ←hi, ←evaluate_eq_digitLimit sw]
    by_cases h : (evaluate sw line).outcome = .error .digitLimit
    case pos => simp [h, run_limit h, Transcript.ended]
    case neg => simp [h, run_cons h, Transcript.before]

theorem newline_notMem_detour (k : Nat) : '\n' ∉ (detour k).toList := by
  simp [detour, Numeral.power]

-- A session reaches the end of its input unless a line goes over the limit. Each line has one verdict
-- then, and stands behind a prompt of its own.
theorem session_returns_iff (prompt input : String) :
    ((Session.ofInput .off prompt input).ending = .returned none ↔
      ∀ line ∈ Text.typedLines input, ¬Overflows line) ∧
    ((∀ line ∈ Text.typedLines input, ¬Overflows line) →
      Session.ofInput .off prompt input =
        ⟨String.join ((Text.typedLines input).map fun line => prompt ++ told .off line) ++ prompt, "",
          .returned none⟩) ∧
    ∀ line, ¬Overflows line →
      (∃ v, (evaluate .off line).outcome = .ok v ∧ told .off line = Numeral.decimal v ++ "\n") ∨
      (∃ err r, (evaluate .off line).outcome = .error err ∧ err.report? = some r ∧
        told .off line = r.display ++ "\n") := by
  refine ⟨Session.run_ending .off, fun h => Session.run_eq fun line hl => ?_, fun _ => told_cases⟩
  exact evaluate_eq_digitLimit .off |>.not.mpr (h line hl)

-- What a session does not survive: a line that leaves the limit and comes back. The line behind it is
-- never answered.
theorem session_detour :
    Session.ofInput .off "calc> " (Text.ofLines [detour 4299, "1+1"]) =
      ⟨"calc> ", "", .failed (.error .digitLimit)⟩ := by
  have hn : ∀ line ∈ [detour 4299, "1+1"], '\n' ∉ line.toList := by
    simp only [List.forall_mem_cons]
    exact ⟨newline_notMem_detour 4299, by decide, nofun⟩
  rw [Session.ofInput, Text.typedLines_ofLines hn, Session.run_limit (evaluate_detour .off rfl),
    evaluate_off_printed, String.append_empty]
  rfl

end Abacus
