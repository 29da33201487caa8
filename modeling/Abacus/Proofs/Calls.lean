import Abacus.Call
import Abacus.Proofs.Flags

namespace Abacus.Call

def asked? : Call → Option Switches
  | main arguments _ =>
    match CommandLine.parse arguments with
    | .ok (.run _) =>
      some ⟨CommandLine.given .tokens arguments, CommandLine.given .trace arguments⟩
    | _ => none
  | session .. | batch _ | line _ => none

def after (files : FileTree) (sw : Switches) (calls : List Call) : Switches :=
  calls.foldl (fun sw call => (call.run files sw).2) sw

variable {files : FileTree} {sw : Switches} {arguments : List String}

theorem run_switches (call : Call) : (call.run files sw).2 = call.asked?.getD sw := by
  cases call
  case main arguments input =>
    cases h : CommandLine.parse arguments
    case error => rw [run_main_error files sw input h, asked?, h]; rfl
    case ok r =>
      cases r
      case help => rw [run_main_help files sw input h, asked?, h]; rfl
      case run s =>
        rw [run_main files sw input h, CommandLine.parse_switches h, asked?, h]
        cases s.file <;> rfl
  all_goals rfl

theorem after_eq (files : FileTree) (sw : Switches) (calls : List Call) :
    after files sw calls = (calls.filterMap asked?).getLast?.getD sw := by
  induction calls generalizing sw
  case nil => rfl
  case cons call calls hi =>
    rw [after, List.foldl_cons, run_switches, ←after, hi]
    cases h : call.asked?
    case none   => simp [h]
    case some t => simp [h, List.getLast?_cons]

theorem runAll_append (files : FileTree) (sw : Switches) (before calls : List Call) :
    runAll files sw (before ++ calls) =
      runAll files sw before ++ runAll files (after files sw before) calls := by
  induction before generalizing sw
  case nil               => rfl
  case cons call before hi => exact congrArg _ <| hi _

theorem length_runAll (files : FileTree) (sw : Switches) (calls : List Call) :
    (runAll files sw calls).length = calls.length := by
  induction calls generalizing sw
  case nil            => rfl
  case cons hi => simp [runAll, hi]

theorem getElem?_runAll {calls : List Call} {call : Call} {i : Nat} (h : calls[i]? = some call) :
    (runAll files sw calls)[i]? = (runAll files (after files sw (calls.take i)) [call]).head? := by
  have ⟨hi, hc⟩ := List.getElem?_eq_some_iff.mp h
  have hl : (runAll files sw (calls.take i)).length = i := by
    rw [length_runAll, List.length_take_of_le (Nat.le_of_lt hi)]
  have hd : calls.take i ++ call :: calls.drop (i + 1) = calls := by
    rw [←hc, List.getElem_cons_drop, List.take_append_drop]
  have ha := runAll_append files sw (calls.take i) (call :: calls.drop (i + 1))
  rw [hd] at ha
  rw [ha, List.getElem?_append_right (Nat.le_of_eq hl), hl, Nat.sub_self]
  rfl

-- At all times the switches are those that the last main call gave whose arguments could be read,
-- however that call ended. It runs with them itself, and they are all that a call leaves to the next
-- one. A main call whose arguments cannot be read, or that asks for help, leaves nothing and reads
-- nothing.
theorem runAll_switches (files : FileTree) (sw : Switches) (calls : List Call) :
    (∀ i, after files sw (calls.take i) = ((calls.take i).filterMap asked?).getLast?.getD sw) ∧
    (∀ i call, calls[i]? = some call →
      (runAll files sw calls)[i]? =
        (runAll files (after files sw (calls.take i)) [call]).head?) ∧
    (∀ arguments input s, CommandLine.parse arguments = .ok (.run s) →
      let asked : Switches :=
        ⟨CommandLine.given .tokens arguments, CommandLine.given .trace arguments⟩
      (main arguments input).run files sw =
          (s.file.elim (session s.prompt input) batch).run files asked ∧
        ((main arguments input).run files sw).2 = asked) ∧
    (∀ arguments e, CommandLine.parse arguments = .error e → ∀ files sw input,
      (main arguments input).run files sw = (⟨"", CommandLine.complaint e, .exited 2⟩, sw)) ∧
    (∀ arguments, CommandLine.parse arguments = .ok .help → ∀ files sw input,
      (main arguments input).run files sw = (⟨CommandLine.helpText, "", .exited 0⟩, sw)) ∧
    (∀ prompt input, ((session prompt input).run files sw).2 = sw) ∧
    (∀ path, ((batch path).run files sw).2 = sw) ∧
    (∀ text, ((line text).run files sw).2 = sw) := by
  refine ⟨fun i => after_eq files sw _, fun _ _ => getElem?_runAll, ?_,
    fun _ _ h files sw input => run_main_error files sw input h,
    fun _ h files sw input => run_main_help files sw input h, fun _ _ => rfl, fun _ => rfl,
    fun _ => rfl⟩
  intro arguments input s h asked
  have hr := run_main files sw input h
  rw [CommandLine.parse_switches h] at hr
  refine ⟨hr, ?_⟩
  rw [run_switches, asked?, h]
  rfl

example :
    let calls := [main ["--tokens", "--tr", "nowhere"] "", main ["--trace", "nowhere"] ""]
    after ⟨[]⟩ .off calls = ⟨false, true⟩ ∧
      runAll ⟨[]⟩ .off calls =
        List.replicate 2 (.ended "" (.failed (.file (.missing "nowhere")))) := by
  decide

end Abacus.Call
