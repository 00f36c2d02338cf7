/-
What the commands print. A report is a block of two or three lines with
an empty line before and behind it; every line is indented by six blanks
and starts with a label, and the values of a block stand in one column.
-/
import Mnemonic.CommandLine.Style

namespace Mnemonic.CommandLine.Report

variable (colour : Bool)

/-- One line: a label, the gap behind it, and a value. -/
def line (label gap value : String) : String :=
  "      " ++ Style.paint colour .label label ++ gap ++ value ++ "\n"

/-- Some lines with an empty line before and behind them. -/
def block (lines : List String) : String :=
  "\n" ++ String.join lines ++ "\n"

/-- How a number of words is written. -/
def wordCount (n : Nat) : String := toString n ++ " words"

/-- The bytes of a sentence in hexadecimal, whose label tells whether
the checksum is among them. -/
def decoded (count : Nat) (hex : String) (withChecksum : Bool) : String :=
  let label := if withChecksum then "Entropy+CS" else "Entropy   "
  block
    [line colour "Words" "       " (wordCount count),
     line colour label "  " (Style.paint colour .result hex)]

def checked (count : Nat) (valid : Bool) : String :=
  let status :=
    if valid then Style.paint colour .accepted "valid" else Style.paint colour .refused "invalid"
  block
    [line colour "Words" "   " (wordCount count),
     line colour "Status" "  " status]

/-- A sentence, its expansion, and whether that decodes. -/
def expanded (sentence expansion : String) (valid : Bool) : String :=
  let status :=
    if valid then Style.paint colour .good "valid" else Style.paint colour .doubtful "invalid"
  block
    [line colour "Input" "     " sentence,
     line colour "Expanded" "  " (Style.paint colour .result expansion),
     line colour "Checksum" "  " status]

end Mnemonic.CommandLine.Report
