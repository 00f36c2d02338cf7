/-
Blank characters, those with the Unicode property White_Space. They
separate the tokens of a sentence and are trimmed from the lines of a
word list. Characters that only look empty (zero width space, byte order
mark, the information separators) are not blank and belong to words.
-/
import Mnemonic.Text.CharClass

namespace Mnemonic.Text

/-- The property White_Space: ten ranges, twenty-five characters. -/
def blank : CharClass where
  ranges :=
    [(0x09, 0x0D), (0x20, 0x20), (0x85, 0x85), (0xA0, 0xA0), (0x1680, 0x1680),
     (0x2000, 0x200A), (0x2028, 0x2029), (0x202F, 0x202F), (0x205F, 0x205F),
     (0x3000, 0x3000)]

def isBlank (c : Char) : Bool := blank.contains c

example : blank.size = 25 := by decide

/-- Zero width space, byte order mark and unit separator are no
blanks. -/
example : ['\u200b', '\ufeff', '\x1f'].any isBlank = false := by decide

/-- A text without any blank character. -/
def BlankFree (s : List Char) : Prop := ∀ c ∈ s, isBlank c = false

instance (s : List Char) : Decidable (BlankFree s) :=
  List.decidableBAll (fun c => isBlank c = false) s

/-- A text of blank characters only, possibly empty. -/
def AllBlank (s : List Char) : Prop := ∀ c ∈ s, isBlank c = true

instance (s : List Char) : Decidable (AllBlank s) :=
  List.decidableBAll (fun c => isBlank c = true) s

end Mnemonic.Text
