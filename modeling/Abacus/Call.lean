import Abacus.Batch
import Abacus.CommandLine
import Abacus.FileTree
import Abacus.Session

namespace Abacus

inductive Call
  | main (arguments : List String) (input : String)
  | session (prompt input : String)
  | batch (path : String)
  | line (text : String)
  deriving DecidableEq, Repr

namespace Call

def runBatch (files : FileTree) (sw : Switches) (path : String) : Transcript :=
  match files.read path with
  | .ok content => Batch.ofContent sw content
  | .error e    => .ended "" (.failed (.file e))

def runLine (sw : Switches) (text : String) : Transcript :=
  let a := evaluate sw text
  .ended a.printed <| match a.outcome with
    | .ok v    => .returned (some v)
    | .error e => .failed (.error e)

def runMain (files : FileTree) (sw : Switches) (arguments : List String) (input : String) :
    Transcript × Switches :=
  match CommandLine.parse arguments with
  | .error e  => (⟨"", CommandLine.complaint e, .exited 2⟩, sw)
  | .ok .help => (.ended CommandLine.helpText (.exited 0), sw)
  | .ok (.run s) =>
    match s.file with
    | none      => (Session.ofInput s.switches s.prompt input, s.switches)
    | some path => (runBatch files s.switches path, s.switches)

def run (files : FileTree) (sw : Switches) : Call → Transcript × Switches
  | main arguments input => runMain files sw arguments input
  | session prompt input => (Session.ofInput sw prompt input, sw)
  | batch path           => (runBatch files sw path, sw)
  | line text            => (runLine sw text, sw)

section

variable {arguments : List String} (files : FileTree) (sw : Switches) (input : String)

theorem run_main_error {e : CommandLine.UsageError} (h : CommandLine.parse arguments = .error e) :
    (main arguments input).run files sw = (⟨"", CommandLine.complaint e, .exited 2⟩, sw) := by
  simp only [run, runMain, h]

theorem run_main_help (h : CommandLine.parse arguments = .ok .help) :
    (main arguments input).run files sw = (⟨CommandLine.helpText, "", .exited 0⟩, sw) := by
  simp only [run, runMain, h, Transcript.ended]

theorem run_main {s : CommandLine.Settings} (h : CommandLine.parse arguments = .ok (.run s)) :
    (main arguments input).run files sw =
      (s.file.elim (session s.prompt input) batch).run files s.switches := by
  simp only [run, runMain, h]
  split
  case h_1 hs => rw [hs]; rfl
  case h_2 hs => rw [hs]; rfl

end

def runAll (files : FileTree) (sw : Switches) : List Call → List Transcript
  | [] => []
  | call :: calls =>
    let (t, sw) := call.run files sw
    t :: runAll files sw calls

end Call

end Abacus
