/-
Running a command: from the arguments and what surrounds the program to
the exit code and the two outputs. The word list is loaded first, and if
that fails nothing else is looked at. A command that fails exits with 1
and reports the cause on the second output; what it printed before
stays.

A hash function is a parameter of the commands; the program at the end
of the file takes SHA-256.
-/
import Mnemonic.CommandLine.Arguments
import Mnemonic.CommandLine.Files
import Mnemonic.CommandLine.Report
import Mnemonic.Sentence.Abbreviation
import Mnemonic.Sentence.Decode
import Mnemonic.Text.Hex

namespace Mnemonic.CommandLine

/-- What surrounds the program. -/
structure Environment where
  read : String → Except FileError String
  /-- The word lists of the languages. -/
  vocabulary : Vocabulary
  /-- Whether output is coloured. -/
  colour : Bool

/-- What surrounds a program that runs in a folder. -/
def Environment.inFolder (folder : Folder) (vocabulary : Vocabulary) (colour : Bool) :
    Environment where
  read := folder.read
  vocabulary
  colour

inductive Failure where
  | file (e : FileError)
  | refusal (e : Error)
deriving DecidableEq, Repr

def Failure.message : Failure → String
  | file e => e.message
  | refusal e => e.message

/-- What a run leaves behind. -/
structure Outcome where
  exit : Nat
  output : String
  errors : String
deriving DecidableEq, Repr

namespace Outcome

/-- A run that ends well. -/
def success (output : String) : Outcome := ⟨0, output, ""⟩

/-- A run that fails after some output. -/
def failed (output : String) (f : Failure) : Outcome :=
  ⟨1, output, "Error: " ++ f.message ++ "\n"⟩

end Outcome

/-- The word list that a source names. -/
def Environment.load (env : Environment) : Source → Except Failure WordList
  | .bundled language => .ok (env.vocabulary language)
  | .file path =>
      match env.read path with
      | .error e => .error (.file e)
      | .ok text => (WordList.ofText text).mapError .refusal

-- ==================================================== the commands

def tokenCount (sentence : String) : Nat := (Text.tokens sentence).length

variable (H : Hash) (colour : Bool) (l : WordList) (sentence : String)

/-- Prints the entropy of a sentence, with the checksum byte if that is
wanted. -/
def runDecodeWith (withChecksum : Bool) : Outcome :=
  let bytes :=
    if withChecksum then Sentence.decodeBytesWith H l sentence
    else Sentence.decodeWith H l sentence
  match bytes with
  | .error e => .failed "" (.refusal e)
  | .ok bytes =>
      .success (Report.decoded colour (tokenCount sentence) (Text.Hex.text bytes) withChecksum)

/-- Prints whether a sentence decodes, and fails if it does not. -/
def runCheckWith : Outcome :=
  match Sentence.decodeWith H l sentence with
  | .error e => .failed (Report.checked colour (tokenCount sentence) false) (.refusal e)
  | .ok _ => .success (Report.checked colour (tokenCount sentence) true)

/-- Prints the expansion of a sentence and whether that decodes. -/
def runExpandWith : Outcome :=
  match Sentence.expand l sentence with
  | .error e => .failed "" (.refusal e)
  | .ok expansion =>
      .success (Report.expanded colour sentence expansion (Sentence.validWith H l expansion))

/-- Carries out a task on a sentence and a word list. -/
def runTaskWith : Task → Outcome
  | .decode withChecksum => runDecodeWith H colour l sentence withChecksum
  | .check => runCheckWith H colour l sentence
  | .expand => runExpandWith H colour l sentence

-- ==================================================== the program

/-- The text that names the version of the program or of one of its
commands. -/
def versionText (command : Option Command) : String :=
  match command with
  | none => "seedword 0.3.0\n"
  | some c => "seedword-" ++ c.name ++ " 0.3.0\n"

/-- Carries out what some arguments ask for. -/
def Environment.answerWith (env : Environment) : Request → Outcome
  | .version command => .success (versionText command)
  | .perform i =>
      match env.load i.source with
      | .error f => .failed "" f
      | .ok l => runTaskWith H env.colour l i.sentence i.task

/-- The outcome of the program on some arguments, unless the arguments
are at fault. -/
def Environment.runWith (env : Environment) (arguments : List String) :
    Except UsageError Outcome :=
  (request arguments).map (env.answerWith H)

-- ==================================================== with SHA-256

/-- Carries out what some arguments ask for, with SHA-256. -/
def Environment.answer (env : Environment) : Request → Outcome :=
  env.answerWith sha256

/-- The outcome of the program, which takes SHA-256. -/
def Environment.run (env : Environment) (arguments : List String) :
    Except UsageError Outcome :=
  env.runWith sha256 arguments

/-- The exit code of a run: that of its outcome, or 2 if the arguments are
at fault. -/
def exitCode : Except UsageError Outcome → Nat
  | .error _ => 2
  | .ok outcome => outcome.exit

end Mnemonic.CommandLine
