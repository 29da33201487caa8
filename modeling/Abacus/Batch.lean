import Abacus.Text.Lines
import Abacus.Transcript

namespace Abacus.Batch

def run (sw : Switches) : (lines : List String) → Transcript
  | [] => .ended "" (.returned none)
  | line :: lines =>
    let a := evaluate sw line
    match Verdict.ofOutcome a.outcome with
    | .value s  => (run sw lines).before (a.printed ++ s ++ "\n")
    | .report s => .ended (a.printed ++ s ++ "\n") (.exited 1)
    | .stop e   => .ended a.printed (.failed (.error e))

def ofContent (sw : Switches) (content : String) : Transcript :=
  run sw (Text.fileLines content)

end Abacus.Batch
