/-
Quoted text, for showing a string inside a description. The string
stands between double quotes; a double quote, a backslash and the usual
control characters have a backslash form, other characters that do not
show by themselves are written by their code point, all else stands for
itself. A single quote needs no escape.
-/
import Mnemonic.Text.Invisible

namespace Mnemonic.Text.Quoted

/-- The letter that follows the backslash in the short escape of a
character. -/
def letter? : Char → Option Char
  | '"' => some '"'
  | '\\' => some '\\'
  | '\t' => some 't'
  | '\r' => some 'r'
  | '\n' => some 'n'
  | '\x00' => some '0'
  | _ => none

/-- A character by its code point, in lower-case hexadecimal without
leading zeros. -/
def codePoint (c : Char) : List Char :=
  ['\\', 'u', '\x7b'] ++ Nat.toDigits 16 c.toNat ++ ['\x7d']

/-- How one character is written between the quotes. -/
def escape (c : Char) : List Char :=
  match letter? c with
  | some l => ['\\', l]
  | none => if invisible.contains c then codePoint c else [c]

/-- A string between double quotes. -/
def text (s : String) : String :=
  String.ofList ('"' :: s.toList.flatMap escape ++ ['"'])

example : text "a\"\\\t'é" = "\"a\\\"\\\\\\t'é\"" := by decide +kernel

example :
    text "\x1f\u200ba\u0301" = "\"\\u\x7b1f\x7d\\u\x7b200b\x7da\\u\x7b301\x7d\"" := by
  decide +kernel

end Mnemonic.Text.Quoted
