/-
The arguments of the command line.

  [-v] COMMAND -m SENTENCE [-w FILE | -l LANGUAGE] [-c] [-v]

Arguments are read one by one. An option with a value takes it from its
own argument (`-mV`, `-m=V`, `--mnemonic=V`) or from the next one, which
then must not look like an option; letters of options without a value
may be joined in front of another letter. What an argument is read as
depends only on the arguments before it, so the first fault ends the
reading, and so does the request for the version. That something is
missing, or that two options exclude each other, is found at the end.

There are no texts of help here. What asks for one, `-h`, `--help` or
the word `help`, is an argument like any other that is not known.
-/
import Mnemonic.CommandLine.Request

namespace Mnemonic.CommandLine

-- ==================================================== ends of a reading

/-- Why reading stops before the last argument. -/
inductive Stop where
  | fault (e : UsageError)
  | version
deriving DecidableEq, Repr

-- ============================================ options after a command

structure Given where
  sentence : Option String := none
  file : Option String := none
  language : Option Language := none
  checksum : Bool := false
  verbose : Bool := false
deriving DecidableEq, Repr

namespace Given

def setValue (g : Given) : Valued → String → Except Stop Given
  | .sentence, v =>
      if g.sentence.isSome then .error (.fault (.repeated (.valued .sentence)))
      else .ok { g with sentence := some v }
  | .file, v =>
      if g.file.isSome then .error (.fault (.repeated (.valued .file)))
      else if v.isEmpty then .error (.fault (.badValue .file v))
      else .ok { g with file := some v }
  | .language, v =>
      if g.language.isSome then .error (.fault (.repeated (.valued .language)))
      else
        match Language.ofName? v with
        | none => .error (.fault (.badValue .language v))
        | some l => .ok { g with language := some l }

def setFlag (g : Given) : Flag → Except Stop Given
  | .verbose =>
      if g.verbose then .error (.fault (.repeated (.flag .verbose)))
      else .ok { g with verbose := true }
  | .checksum =>
      if g.checksum then .error (.fault (.repeated (.flag .checksum)))
      else .ok { g with checksum := true }
  | .version => .error .version

/-- The word list that is asked for, English unless something is
said. -/
def source (g : Given) : Except UsageError Source :=
  match g.file, g.language with
  | some _, some _ => .error .twoSources
  | some path, none => .ok (.file path)
  | none, some l => .ok (.bundled l)
  | none, none => .ok (.bundled .english)

def task (g : Given) : Command → Task
  | .decode => .decode g.checksum
  | .check => .check
  | .expand => .expand

/-- The command with its options, if they are complete and agree. -/
def invocation (g : Given) (c : Command) (verbose : Bool) :
    Except UsageError Invocation := do
  let source ← g.source
  match g.sentence with
  | none => .error .noSentence
  | some sentence => .ok ⟨g.task c, sentence, source, verbose || g.verbose⟩

end Given

/-- How far the arguments after a command have been read. -/
structure Reading where
  given : Given := {}
  /-- An option whose value is to come. -/
  pending : Option Valued := none
  /-- Whether the mark that ends the options has been passed. -/
  ended : Bool := false
deriving DecidableEq, Repr

/-- Whether an argument looks like an option. A lone dash does not. -/
def looksLikeOption (argument : String) : Bool :=
  match argument.toList with
  | '-' :: _ :: _ => true
  | _ => false

/-- A long option cut at its first equals sign: its name, and its value
if there is a sign. -/
def cutLong (s : List Char) : String × Option String :=
  let name := s.takeWhile (· != '=')
  match s.drop name.length with
  | [] => (String.ofList name, none)
  | _ :: v => (String.ofList name, some (String.ofList v))

/-- The value that follows a letter in the same argument, less an equals
sign in front of it. -/
def attached : List Char → Option String
  | [] => none
  | '=' :: v => some (String.ofList v)
  | v => some (String.ofList v)

namespace Reading

/-- Gives an option its value, or waits for it. -/
def setValue (r : Reading) (o : Valued) (value : Option String) :
    Except Stop Reading :=
  match value with
  | none => .ok { r with pending := some o }
  | some v => do
      let given ← r.given.setValue o v
      return { r with given, pending := none }

def setFlag (r : Reading) (f : Flag) : Except Stop Reading := do
  let given ← r.given.setFlag f
  return { r with given }

/-- Reads an argument of joined letters. A letter whose option takes a
value takes all that follows as this value. -/
def letters (command : Command) (argument : String) (r : Reading) :
    List Char → Except Stop Reading
  | [] => .ok r
  | c :: cs =>
      match (Opt.ofLetter? c).filter (Opt.allowed (some command)) with
      | none => .error (.fault (.unknownOption argument))
      | some (.valued o) => r.setValue o (attached cs)
      | some (.flag f) => do
          let r ← r.setFlag f
          letters command argument r cs

/-- Reads an argument with a long name. -/
def long (command : Command) (argument : String) (r : Reading) (s : List Char) :
    Except Stop Reading :=
  let (name, value) := cutLong s
  match (Opt.ofLongName? name).filter (Opt.allowed (some command)), value with
  | none, _ => .error (.fault (.unknownOption argument))
  | some (.valued o), value => r.setValue o value
  | some (.flag f), some _ => .error (.fault (.needlessValue f))
  | some (.flag f), none => r.setFlag f

/-- Reads one argument after a command. -/
def step (command : Command) (r : Reading) (argument : String) :
    Except Stop Reading :=
  if r.ended then .error (.fault (.unexpected argument))
  else
    match r.pending with
    | some o =>
        if looksLikeOption argument then .error (.fault (.missingValue o))
        else r.setValue o (some argument)
    | none =>
        match argument.toList with
        | ['-', '-'] => .ok { r with ended := true }
        | '-' :: '-' :: s => r.long command argument s
        | '-' :: c :: cs => r.letters command argument (c :: cs)
        | _ => .error (.fault (.unexpected argument))

/-- The options given, once all arguments are read. -/
def finish (r : Reading) : Except Stop Given :=
  match r.pending with
  | some o => .error (.fault (.missingValue o))
  | none => .ok r.given

end Reading

/-- The options that the arguments after a command give. -/
def readOptions (command : Command) (arguments : List String) :
    Except Stop Given := do
  let r ← arguments.foldlM (Reading.step command) {}
  r.finish

-- ========================================= options before the command

/-- Gives an option before the command; none of them has a value. -/
def setLeading (verbose : Bool) : Flag → Except Stop Bool
  | .version => .error .version
  | f => if verbose then .error (.fault (.repeated (.flag f))) else .ok true

/-- Reads joined letters before the command. -/
def leadingLetters (argument : String) (verbose : Bool) :
    List Char → Except Stop Bool
  | [] => .ok verbose
  | c :: cs =>
      match (Opt.ofLetter? c).filter (Opt.allowed none) with
      | some (.flag f) => do
          let verbose ← setLeading verbose f
          leadingLetters argument verbose cs
      | _ => .error (.fault (.unknownOption argument))

/-- Reads one argument before the command, knowing whether a log is
asked for already. -/
def leading (verbose : Bool) (argument : String) : Except Stop Bool :=
  match argument.toList with
  | '-' :: '-' :: s =>
      let (name, value) := cutLong s
      match (Opt.ofLongName? name).filter (Opt.allowed none), value with
      | some (.flag f), none => setLeading verbose f
      | some (.flag f), some _ => .error (.fault (.needlessValue f))
      | _, _ => .error (.fault (.unknownOption argument))
  | '-' :: c :: cs => leadingLetters argument verbose (c :: cs)
  | _ => .error (.fault (.unexpected argument))

/-- What a stop amounts to, given the command that was named before
it. -/
def Stop.toRequest (command : Option Command) :
    Stop → Except UsageError Request
  | fault e => .error e
  | version => .ok (.version command)

/-- What arguments ask for, knowing whether a log is asked for
already. -/
def requestFrom (verbose : Bool) : List String → Except UsageError Request
  | [] => .error .noCommand
  | argument :: rest =>
      match Command.ofWord? argument with
      | some command =>
          match readOptions command rest with
          | .error stop => stop.toRequest (some command)
          | .ok given => (given.invocation command verbose).map .perform
      | none =>
          match leading verbose argument with
          | .error stop => stop.toRequest none
          | .ok verbose => requestFrom verbose rest

/-- What some arguments ask for. -/
def request (arguments : List String) : Except UsageError Request :=
  requestFrom false arguments

end Mnemonic.CommandLine
