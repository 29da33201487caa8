import Abacus.Log
import Abacus.Text.DecimalDigit

namespace Abacus.CommandLine

inductive Flag
  | help
  | prompt
  | tokens
  | trace
  deriving DecidableEq, Repr

namespace Flag

def all : List Flag :=
  [help, prompt, tokens, trace]

def long : Flag → String
  | help   => "--help"
  | prompt => "--prompt"
  | tokens => "--tokens"
  | trace  => "--trace"

def label : Flag → String
  | help => "-h/--help"
  | f    => f.long

def matching (name : List Char) : List Flag :=
  all.filter fun f => name.isPrefixOf f.long.toList

end Flag

inductive UsageError
  | ambiguous (argument : String) (flags : List Flag)
  | missingValue (f : Flag)
  | unwantedValue (f : Flag) (value : String)
  | unrecognized (arguments : List String)
  deriving DecidableEq, Repr

def UsageError.message : UsageError → String
  | ambiguous argument flags =>
    "ambiguous option: " ++ argument ++ " could match " ++ ", ".intercalate (flags.map Flag.long)
  | missingValue f => "argument " ++ f.label ++ ": expected one argument"
  | unwantedValue f value =>
    "argument " ++ f.label ++ ": ignored explicit argument " ++ Text.quoted value
  | unrecognized arguments => "unrecognized arguments: " ++ " ".intercalate arguments

inductive Argument
  | word (s : String)
  | flag (f : Flag) (attached : Option String)
  | short (value : List Char)
  | unknown (s : String)
  | separator
  deriving DecidableEq, Repr

-- What comes after the sign of a negative number, with or without a point. A newline at the very
-- end is overlooked.
def isMagnitude (s : List Char) : Bool :=
  let s := if s.getLast? = some '\n' then s.dropLast else s
  match s.dropWhile Text.isDecimalDigit with
  | []              => !s.isEmpty
  | '.' :: fraction => !fraction.isEmpty && fraction.all Text.isDecimalDigit
  | _               => false

def cut (s : List Char) : List Char × Option String :=
  match s.dropWhile (· ≠ '=') with
  | []         => (s, none)
  | _ :: value => (s.takeWhile (· ≠ '='), some (String.ofList value))

namespace Argument

-- An argument with a leading hyphen that matches no flag is still a word if it looks like a
-- negative number or holds a space.
def ofUnmatched (s : String) (tail : List Char) : Argument :=
  if isMagnitude tail || tail.contains ' ' then word s else unknown s

def ofString (s : String) : Except UsageError Argument :=
  match s.toList with
  | '-' :: '-' :: tail =>
    let (name, value) := cut ('-' :: '-' :: tail)
    match Flag.matching name with
    | []    => .ok (ofUnmatched s ('-' :: tail))
    | [f]   => .ok (flag f value)
    | flags => .error (.ambiguous s flags)
  | ['-', 'h']                 => .ok (flag .help none)
  | '-' :: 'h' :: '=' :: value => .ok (short value)
  | '-' :: 'h' :: value        => .ok (short value)
  | '-' :: c :: tail           => .ok (ofUnmatched s (c :: tail))
  | _                          => .ok (word s)

def ofStrings : List String → Except UsageError (List Argument)
  | [] => .ok []
  | s :: ss =>
    if s = "--" then
      .ok (separator :: ss.map word)
    else
      match ofString s with
      | .error e => .error e
      | .ok a    => (ofStrings ss).map (a :: ·)

end Argument

-- Short flags can be joined behind one hyphen, and what is attached to one may be more of them. Only
-- help has a short form, and it takes no value, so that what follows the last `h` is not wanted.
def unwanted? (value : List Char) : Option (List Char) :=
  if value ≠ [] ∧ value.all (· = 'h') then none else some (value.dropWhile (· = 'h'))

-- An attached `--` is taken away from the values of its flag. The prompt is then the list of no values.
def attachedPrompt (value : String) : String :=
  if value = "--" then "[]" else value

structure Settings where
  switches : Switches
  prompt : String
  file : Option String
  deriving DecidableEq, Repr

namespace Settings

def default : Settings where
  switches := .off
  prompt   := "calc> "
  file     := none

def logTokens (s : Settings) : Settings :=
  { s with switches := { s.switches with tokens := true } }

def logSteps (s : Settings) : Settings :=
  { s with switches := { s.switches with steps := true } }

end Settings

inductive Request
  | help
  | run (s : Settings)
  deriving DecidableEq, Repr

namespace Request

-- Arguments take effect from left to right, but those with which nothing can be done are only
-- collected, and complained about at the end. The separator belongs to the file's name, before it
-- or right after it.
def ofArguments (s : Settings) (extra : List String) : List Argument → Except UsageError Request
  | [] => if extra = [] then .ok (run s) else .error (.unrecognized extra)
  | .word w :: rest =>
    match s.file, rest with
    | none, .separator :: rest => ofArguments { s with file := some w } extra rest
    | none, rest               => ofArguments { s with file := some w } extra rest
    | some _, rest             => ofArguments s (extra ++ [w]) rest
  | .separator :: rest => ofArguments s (if s.file = none then extra else extra ++ ["--"]) rest
  | .unknown u :: rest => ofArguments s (extra ++ [u]) rest
  | .short value :: _ =>
    match unwanted? value with
    | none       => .ok help
    | some value => .error (.unwantedValue .help (String.ofList value))
  | .flag .help none :: _                 => .ok help
  | .flag .tokens none :: rest            => ofArguments s.logTokens extra rest
  | .flag .trace none :: rest             => ofArguments s.logSteps extra rest
  | .flag .prompt none :: .word w :: rest => ofArguments { s with prompt := w } extra rest
  | .flag .prompt none :: _               => .error (.missingValue .prompt)
  | .flag .prompt (some v) :: rest        => ofArguments { s with prompt := attachedPrompt v } extra rest
  | .flag f (some v) :: _                 => .error (.unwantedValue f v)

end Request

-- An ambiguous argument is found before any argument takes effect.
def parse (arguments : List String) : Except UsageError Request :=
  match Argument.ofStrings arguments with
  | .error e => .error e
  | .ok as   => Request.ofArguments .default [] as

def usage : String :=
  "usage: calc [-h] [--prompt PROMPT] [--tokens] [--trace] [inputfile]\n"

def complaint (e : UsageError) : String :=
  usage ++ "calc: error: " ++ e.message ++ "\n"

def helpText : String :=
  usage ++ "\n".intercalate [
    "",
    "calc - left-to-right integer calculator",
    "",
    "positional arguments:",
    "  inputfile        file with one expression per line (default: interactive",
    "                   prompt)",
    "",
    "options:",
    "  -h, --help       show this help message and exit",
    "  --prompt PROMPT  interactive prompt text",
    "  --tokens         Print every token produced by the lexer",
    "  --trace          Print every reduction step",
    ""]

end Abacus.CommandLine
