import Abacus.Proofs.Transcripts

namespace Abacus

variable {sw : Switches} {content : String} {lines more : List String}

theorem evaluate_eq_of_visible {k l : String} (sw : Switches)
    (h : visible k.toList = visible l.toList) : evaluate sw k = evaluate sw l := by
  rw [←evaluate_visible sw k, h, evaluate_visible sw l]

theorem Text.keptLines_typedLines (sw : Switches) (h : Lines.Paired content.toList) :
    List.Forall₂ (fun k l => evaluate sw k = evaluate sw l) (keptLines content)
      (typedLines content) := by
  have ⟨ls, ht, hv⟩ := Lines.filed_iff.mpr rfl |>.exists_typed h
  rw [keptLines, typedLines, ht.split_eq, List.forall₂_map_left_iff, List.forall₂_map_right_iff]
  exact hv.imp fun k l hk => evaluate_eq_of_visible sw <| by simpa using hk

theorem Batch.ofContent_typed (sw : Switches) (h : Text.Lines.Paired content.toList) :
    ofContent sw content = run sw (Text.typedLines content) := by
  rw [ofContent_eq, run_congr (Text.keptLines_typedLines sw h)]

theorem ne_digitLimit (h : ∀ line ∈ lines, ∃ v, (evaluate sw line).outcome = .ok v) :
    ∀ line ∈ lines, (evaluate sw line).outcome ≠ .error .digitLimit := by
  intro line hl he
  have ⟨v, hv⟩ := h line hl
  cases he.symm.trans hv

namespace Session

theorem map_block (lines : List String) : lines.map (block sw "") = lines.map (told sw) := by
  simp [block]

theorem run_eq_batch (h : ∀ line ∈ lines, ∃ v, (evaluate sw line).outcome = .ok v) :
    run sw "" lines = Batch.run sw lines := by
  rw [Batch.run_eq h, run_eq (ne_digitLimit h), map_block, String.append_empty]

variable {bad : String} (hg : ∀ line ∈ lines, ∃ v, (evaluate sw line).outcome = .ok v)

include hg

theorem run_eq_before {err : Error} {r : Report} (h : (evaluate sw bad).outcome = .error err)
    (hr : err.report? = some r) :
    run sw "" (lines ++ bad :: more) =
      (run sw "" more).before (Batch.run sw (lines ++ bad :: more)).stdout := by
  have hb : (evaluate sw bad).outcome ≠ .error .digitLimit := by
    intro he
    cases h.symm.trans he
    cases hr
  rw [run_append (ne_digitLimit hg), run_cons hb, Transcript.before_before, map_block,
    Batch.run_append hg, Batch.run_report h hr]
  simp [block]
  rfl

theorem run_eq_batch_of_limit (h : (evaluate sw bad).outcome = .error .digitLimit) :
    run sw "" (lines ++ bad :: more) = Batch.run sw (lines ++ bad :: more) := by
  rw [run_append (ne_digitLimit hg), run_limit h, map_block, Batch.run_append hg, Batch.run_limit h,
    String.empty_append]

end Session

-- Beside a text without a lone `'\r'` a batch does what a session without a prompt does, as far as
-- the first line that has no value. If this line is reported, the batch exits there, and the session
-- goes on with the next one. If it goes over the digit limit, it ends them both.
theorem batch_agrees_with_session (sw : Switches) {content : String}
    (h : Text.Lines.Paired content.toList) :
    List.Forall₂ (fun k l => evaluate sw k = evaluate sw l) (Text.keptLines content)
      (Text.typedLines content) ∧
    ((∀ line ∈ Text.typedLines content, ∃ v, (evaluate sw line).outcome = .ok v) →
      Batch.ofContent sw content = Session.ofInput sw "" content ∧
        (Batch.ofContent sw content).ending = .returned none) ∧
    ∀ good bad more err, Text.typedLines content = good ++ bad :: more →
      (∀ line ∈ good, ∃ v, (evaluate sw line).outcome = .ok v) →
      (evaluate sw bad).outcome = .error err →
      (∃ r, err.report? = some r ∧
        Batch.ofContent sw content =
          ⟨String.join (good.map (told sw)) ++
            ((evaluate sw bad).printed ++ (r.category.name ++ ": " ++ r.text) ++ "\n"), "",
            .exited 1⟩ ∧
        Session.ofInput sw "" content =
          (Session.run sw "" more).before (Batch.ofContent sw content).stdout) ∨
      (err = .digitLimit ∧
        Batch.ofContent sw content = Session.ofInput sw "" content ∧
        (Batch.ofContent sw content).ending = .failed (.error .digitLimit)) := by
  refine ⟨Text.keptLines_typedLines sw h, ?_, ?_⟩ <;>
    rw [Batch.ofContent_typed sw h, Session.ofInput]
  case refine_1 =>
    intro hv
    rw [Session.run_eq_batch hv, Batch.run_eq hv]
    exact ⟨rfl, rfl⟩
  case refine_2 =>
    intro good bad more err hc hg he
    rw [hc]
    obtain hd | ⟨r, hr⟩ := evaluate_reported he
    case inl =>
      subst hd
      refine .inr ⟨rfl, (Session.run_eq_batch_of_limit hg he).symm, ?_⟩
      rw [Batch.run_append hg, Batch.run_limit he]
      rfl
    case inr =>
      refine .inl ⟨r, hr, ?_, Session.run_eq_before hg he hr⟩
      rw [Batch.run_append hg, Batch.run_report he hr, told_report he hr]
      rfl

theorem batch_agrees_with_session_division :
    Text.Lines.Paired "1+1\r\n2/0\n7".toList ∧
      Batch.ofContent .off "1+1\r\n2/0\n7" =
        ⟨"2\nDivisionByZeroError: Division by zero: 2 / 0\n", "", .exited 1⟩ ∧
      Session.ofInput .off "" "1+1\r\n2/0\n7" =
        (Session.run .off "" ["7"]).before (Batch.ofContent .off "1+1\r\n2/0\n7").stdout := by
  have hp : Text.Lines.Paired "1+1\r\n2/0\n7".toList := by decide
  have hg : ∀ line ∈ ["1+1\r"], ∃ v, (evaluate .off line).outcome = .ok v := by
    simp only [List.forall_mem_singleton]
    exact ⟨2, by decide +kernel⟩
  have h := batch_agrees_with_session .off hp |>.right.right ["1+1\r"] "2/0" ["7"]
    (.divisionByZero (.operator .divide) 2) (by decide +kernel) hg (by decide +kernel)
  obtain ⟨r, hr, hb, hs⟩ | ⟨he, -⟩ := h
  case inl =>
    cases hr
    exact ⟨hp, hb.trans <| by decide +kernel, hs⟩
  case inr => cases he

end Abacus
