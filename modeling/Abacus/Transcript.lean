import Abacus.Evaluation

namespace Abacus

inductive FileError
  | missing (path : String)
  | notDirectory (path : String)
  | isDirectory (path : String)
  | tooLong (path : String)
  -- A path with a null character in it, which no system is asked for.
  | embeddedNull
  deriving DecidableEq, Repr

def FileError.message : FileError → String
  | missing path      => "[Errno 2] No such file or directory: " ++ Text.quoted path
  | notDirectory path => "[Errno 20] Not a directory: " ++ Text.quoted path
  | isDirectory path  => "[Errno 21] Is a directory: " ++ Text.quoted path
  | tooLong path      => "[Errno 36] File name too long: " ++ Text.quoted path
  | embeddedNull      => "embedded null byte"

inductive Failure
  | error (e : Error)
  | file (e : FileError)
  deriving DecidableEq, Repr

def Failure.message : Failure → String
  | error e =>
    match e.report? with
    | some r => r.display
    | none   => "an integer has more than " ++ Numeral.decimal Numeral.maxDigits ++ " digits"
  | file e => e.message

inductive Ending
  | returned (v : Option Int)
  | exited (code : Nat)
  | failed (f : Failure)
  deriving DecidableEq, Repr

structure Transcript where
  stdout : String
  stderr : String
  ending : Ending
  deriving DecidableEq, Repr

namespace Transcript

def before (printed : String) (t : Transcript) : Transcript :=
  { t with stdout := printed ++ t.stdout }

def ended (printed : String) (ending : Ending) : Transcript where
  stdout := printed
  stderr := ""
  ending := ending

end Transcript

inductive Verdict
  | value (text : String)
  | report (display : String)
  | stop (e : Error)
  deriving DecidableEq, Repr

def Verdict.ofOutcome : Except Error Int → Verdict
  | .ok v =>
    match Numeral.text? v with
    | some s => value s
    | none   => stop .digitLimit
  | .error e =>
    match e.report? with
    | some r => report r.display
    | none   => stop e

end Abacus
