/-
Coloured text for terminals. A piece of text is put between a sequence
that switches its style on and one that switches all styles off; without
colour it stays as it is. Where the text itself switches all styles off,
its own style is switched on again behind that.
-/
namespace Mnemonic.CommandLine

/-- What a piece of output is, as far as its style goes. -/
inductive Style where
  | label | result | accepted | refused | good | doubtful
deriving DecidableEq, Repr

namespace Style

/-- The sequence that switches all styles off. -/
def off : List Char := ['\x1b', '[', '0', 'm']

/-- The parameters of a style: bold is 1, the colours are 31 red, 32
green, 33 yellow, 36 cyan. -/
def parameters : Style → String
  | label => "1;36"
  | result => "32"
  | accepted => "1;32"
  | refused => "1;31"
  | good => "32"
  | doubtful => "33"

/-- The sequence that switches a style on. -/
def on (s : Style) : List Char :=
  ['\x1b', '['] ++ s.parameters.toList ++ ['m']

/-- A text with a style switched on again behind every place that
switches all styles off. -/
def resume (s : Style) : List Char → List Char
  | [] => []
  | '\x1b' :: '[' :: '0' :: 'm' :: cs => off ++ s.on ++ resume s cs
  | c :: cs => c :: resume s cs

/-- A text in a style, if there is colour. -/
def paint (colour : Bool) (s : Style) (text : String) : String :=
  if colour then String.ofList (s.on ++ resume s text.toList ++ off) else text

example : paint true refused "invalid" = "\x1b[1;31minvalid\x1b[0m" := by
  decide +kernel

end Style

end Mnemonic.CommandLine
