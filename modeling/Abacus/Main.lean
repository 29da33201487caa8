import Abacus.Call

namespace Abacus

def giveUp (f : Failure) : IO UInt32 := do
  IO.eprintln f.message
  return 1

def emit (t : Transcript) : IO UInt32 := do
  IO.print t.stdout
  IO.eprint t.stderr
  match t.ending with
  | .returned _  => return 0
  | .exited code => return code.toUInt32
  | .failed f    => giveUp f

def batch (sw : Switches) (path : String) : IO UInt32 := do
  match ← (IO.FS.readFile path).toBaseIO with
  | .ok content => emit (Batch.ofContent sw content)
  | .error (.noFileOrDirectory ..) => giveUp (.file (.missing path))
  | .error (.inappropriateType _ 20 _) => giveUp (.file (.notDirectory path))
  | .error (.inappropriateType ..) => giveUp (.file (.isDirectory path))
  | .error e => throw e

-- Each line is answered before the next is read.
partial def session (sw : Switches) (prompt : String) : IO UInt32 := do
  IO.print prompt
  (← IO.getStdout).flush
  let line ← (← IO.getStdin).getLine
  if line.isEmpty then
    return 0
  let (printed, ended) := Session.reply sw line
  IO.print printed
  match ended with
  | none   => session sw prompt
  | some e => giveUp (.error e)

end Abacus

open Abacus in
def main (arguments : List String) : IO UInt32 := do
  match CommandLine.parse arguments with
  | .error e  => emit ⟨"", CommandLine.complaint e, .exited 2⟩
  | .ok .help => emit (.ended CommandLine.helpText (.exited 0))
  | .ok (.run s) =>
    match s.file with
    | none      => session s.switches s.prompt
    | some path => batch s.switches path
