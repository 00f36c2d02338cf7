/-
What the command line can be asked for: the commands and their options,
and what becomes of them, a task on a sentence with a word list, or the
version. Here too stand the faults that arguments can have.
-/
import Mnemonic.CommandLine.Language

namespace Mnemonic.CommandLine

-- ==================================================== commands and options

inductive Command where
  | decode | check | expand
deriving DecidableEq, Repr

namespace Command

def name : Command → String
  | decode => "decode"
  | check => "check"
  | expand => "expand"

/-- The command that a word names. One of them has a second name. -/
def ofWord? : String → Option Command
  | "decode" => some decode
  | "check" => some check
  | "validate" => some check
  | "expand" => some expand
  | _ => none

end Command

/-- The options that take a value. -/
inductive Valued where
  | sentence | file | language
deriving DecidableEq, Repr

/-- The options that stand alone. -/
inductive Flag where
  | verbose | checksum | version
deriving DecidableEq, Repr

/-- The option of a letter or of a long name. -/
inductive Opt where
  | valued (o : Valued)
  | flag (f : Flag)
deriving DecidableEq, Repr

namespace Opt

def ofLetter? : Char → Option Opt
  | 'm' => some (valued .sentence)
  | 'w' => some (valued .file)
  | 'l' => some (valued .language)
  | 'v' => some (flag .verbose)
  | 'c' => some (flag .checksum)
  | 'V' => some (flag .version)
  | _ => none

def ofLongName? (s : String) : Option Opt :=
  match s with
  | "mnemonic" => some (valued .sentence)
  | "wordlist" => some (valued .file)
  | "language" => some (valued .language)
  | "verbose" => some (flag .verbose)
  | "checksum" => some (flag .checksum)
  | "version" => some (flag .version)
  | _ => none

/-- Whether an option may stand after a command, or, without one, before
it. -/
def allowed (command : Option Command) : Opt → Bool
  | valued _ => command.isSome
  | flag .checksum => command == some .decode
  | flag _ => true

end Opt

-- ==================================================== requests

/-- Where the word list comes from. -/
inductive Source where
  | bundled (language : Language)
  | file (path : String)
deriving DecidableEq, Repr

/-- What a command is to do. -/
inductive Task where
  | decode (withChecksum : Bool)
  | check
  | expand
deriving DecidableEq, Repr

/-- A command with the values of its options. -/
structure Invocation where
  task : Task
  sentence : String
  source : Source
  /-- Whether a log is asked for. It changes neither the output nor the
  exit code. -/
  verbose : Bool
deriving DecidableEq, Repr

/-- What some arguments ask for. -/
inductive Request where
  /-- The version, of a command if one is named. -/
  | version (command : Option Command)
  | perform (i : Invocation)
deriving DecidableEq, Repr

-- ==================================================== faults

inductive UsageError where
  | noCommand
  /-- No option has this letter or long name here. -/
  | unknownOption (argument : String)
  /-- An argument is neither a command nor an option nor a value. -/
  | unexpected (argument : String)
  | missingValue (o : Valued)
  /-- An option without a value is given one. -/
  | needlessValue (f : Flag)
  /-- The value is none that the option takes. -/
  | badValue (o : Valued) (value : String)
  | repeated (o : Opt)
  | noSentence
  /-- A file and a language are both given. -/
  | twoSources
deriving DecidableEq, Repr

end Mnemonic.CommandLine
