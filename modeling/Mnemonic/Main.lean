/-
The program: reads the one file that its arguments may name, runs, and
prints. Whether output is coloured depends on the terminal and on three
environment variables.
-/
import Mnemonic.CommandLine.Run

namespace Mnemonic.CommandLine

/-- Whether to colour output. A variable counts as set to true unless it
is "0"; forcing colour goes before forbidding it, and both before the
terminal. -/
def wantsColour (terminal : Bool) (force forbid colours : Option String) :
    Bool :=
  if force.any (· != "0") then true
  else if forbid.isSome then false
  else terminal && colours.all (· != "0")

/-- The file error that a failed read amounts to. Codes come as they are
or negated. -/
def fileError (e : IO.Error) : FileError :=
  match e with
  | .noFileOrDirectory .. => .absent
  | .inappropriateType _ code _ =>
      if code == 21 || code == 0 - 21 then .directory else .notDirectory
  | .invalidArgument _ code _ =>
      if code == 36 || code == 0 - 36 then .nameTooLong else .other (toString e)
  | e => .other (toString e)

/-- The text of a file on this system. -/
def readText (path : String) : IO (Except FileError String) := do
  try
    match String.fromUTF8? (← IO.FS.readBinFile path) with
    | some text => return .ok text
    | none => return .error .notText
  catch e => return .error (fileError e)

/-- What some arguments get read of the file that they name, if they
name one. -/
def readNamed (arguments : List String) : IO (Except FileError String) := do
  match request arguments with
  | .ok (.perform i) =>
      match i.source with
      | .file path => readText path
      | .bundled _ => return .error .absent
  | _ => return .error .absent

end Mnemonic.CommandLine

open Mnemonic.CommandLine in
def main (arguments : List String) : IO UInt32 := do
  let terminal ← (← IO.getStdout).isTty
  let colour := wantsColour terminal (← IO.getEnv "CLICOLOR_FORCE") (← IO.getEnv "NO_COLOR")
    (← IO.getEnv "CLICOLOR")
  let text ← readNamed arguments
  let env : Environment := { read := fun _ => text, vocabulary := bundled, colour }
  let result := env.run arguments
  match result with
  | .error _ =>
      IO.eprintln
        "usage: seedword [-v] decode|check|expand -m SENTENCE [-w FILE | -l LANGUAGE] [-c]"
  | .ok outcome =>
      IO.print outcome.output
      IO.eprint outcome.errors
  return (exitCode result).toUInt32
