/-
Lines and entries of a text. A line feed ends a line, and a carriage
return directly in front of it goes with it; a carriage return elsewhere
is an ordinary character. The last line needs no line feed, and after a
final line feed there is no further line. Entries are the lines without
the blanks at their ends, as far as anything is left of them.
-/
import Mnemonic.Text.Blank

namespace Mnemonic.Text

-- ==================================================== lines

/-- Puts a character in front of the first line. -/
def extendLine (c : Char) : List (List Char) → List (List Char)
  | [] => [[c]]
  | l :: ls => (c :: l) :: ls

def linesOf : List Char → List (List Char)
  | [] => []
  | '\n' :: s => [] :: linesOf s
  | '\r' :: '\n' :: s => [] :: linesOf s
  | c :: s => extendLine c (linesOf s)

@[simp] theorem linesOf_nil : linesOf [] = [] := rfl

@[simp] theorem linesOf_lineFeed (s : List Char) :
    linesOf ('\n' :: s) = [] :: linesOf s := by
  simp [linesOf]

/-- A carriage return in front of a line feed is no part of the line. -/
@[simp] theorem linesOf_return_lineFeed (s : List Char) :
    linesOf ('\r' :: '\n' :: s) = [] :: linesOf s := by
  simp [linesOf]

/-- A character that ends no line extends the one behind it. -/
theorem linesOf_cons {c : Char} (s : List Char) (hc : c ≠ '\n')
    (hr : c = '\r' → s.head? ≠ some '\n') :
    linesOf (c :: s) = extendLine c (linesOf s) := by
  rw [linesOf.eq_def]
  split
  · contradiction
  · rename_i heq
    cases heq
    exact absurd rfl hc
  · rename_i heq
    cases heq
    exact absurd rfl (hr rfl)
  · rename_i heq
    cases heq
    rfl

-- ==================================================== entries

/-- A text without the blanks at its two ends. -/
def trim (s : List Char) : List Char :=
  ((s.dropWhile isBlank).reverse.dropWhile isBlank).reverse

/-- The trimmed lines of a text, without those of which nothing is
left. -/
def entriesOf (s : List Char) : List (List Char) :=
  ((linesOf s).map trim).filter fun l => !l.isEmpty

/-- The entries of a text, one for each line that is not blank. -/
def entries (s : String) : List String :=
  (entriesOf s.toList).map String.ofList

example : entries "a\r\n\n  b c\t\r\rd\u0085" = ["a", "b c\t\r\rd"] := by
  decide +kernel

end Mnemonic.Text
