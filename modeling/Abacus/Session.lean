import Abacus.Text.Lines
import Abacus.Transcript

namespace Abacus.Session

def reply (sw : Switches) (line : String) : String × Option Error :=
  let a := evaluate sw line
  match Verdict.ofOutcome a.outcome with
  | .value s | .report s => (a.printed ++ s ++ "\n", none)
  | .stop e              => (a.printed, some e)

def run (sw : Switches) (prompt : String) : (lines : List String) → Transcript
  | [] => .ended prompt (.returned none)
  | line :: lines =>
    match reply sw line with
    | (printed, none)   => (run sw prompt lines).before (prompt ++ printed)
    | (printed, some e) => .ended (prompt ++ printed) (.failed (.error e))

def ofInput (sw : Switches) (prompt input : String) : Transcript :=
  run sw prompt (Text.typedLines input)

end Abacus.Session
