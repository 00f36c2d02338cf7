/-
Word lists: 2048 words in order, the position of a word being the eleven
bits it stands for, and an index from words back to positions. Any words
will do, empty and repeated ones included. A list made from words or
from text finds a repeated word at its first position, a list made from
a table at its last; on a list without repetition there is no
difference.

What every list guarantees is that a position found by look-up holds the
word that was looked up, and that every word of the list is found.
-/
import Mnemonic.Error
import Mnemonic.Text.Line
import Mnemonic.Text.Quoted
import Mnemonic.WordList.Index

namespace Mnemonic

/-- 2048 words with an index of them. -/
structure WordList where
  /-- The words, in order of their positions. -/
  words : List String
  index : Index
  length_words : words.length = 2048
  serves : Index.Serves index words

namespace WordList

-- ==================================================== making a list

/-- The list of the given words, if they are as many as needed. A
repeated word is found at its first position. -/
def ofWords (ws : List String) : Except Error WordList :=
  if h : ws.length = 2048 then
    .ok ⟨ws, Index.ofFirst ws, h, Index.ofFirst_serves (by omega)⟩
  else .error (.listLength ws.length)

/-- The list of the words that stand one to a line. Blank lines count
for nothing, and neither do blanks at the ends of a line. -/
def ofText (text : String) : Except Error WordList :=
  ofWords (Text.entries text)

/-- The list of a table of 2048 words. A repeated word is found at its
last position. -/
def ofTable (ws : List String) (h : ws.length = 2048) : WordList :=
  ⟨ws, Index.ofLast ws, h, Index.ofLast_serves (by omega)⟩

-- ==================================================== look-up

variable (l : WordList)

/-- A position of a word, if the word is on the list. -/
def index? (w : String) : Option UInt16 := l.index[w]?

/-- The word at a position, if there are so many words. -/
def word? (i : Nat) : Option String := l.words[i]?

/-- The word at a position of the list. -/
def word (i : Fin 2048) : String := l.words.get (i.cast l.length_words.symm)

def contains (w : String) : Bool := l.index.contains w

/-- The positions of some words, where `p` is the place of the first of
them in its sentence; or the first word that is not on the list, with
its place. -/
def indicesFrom (p : Nat) : List String → Except Error (List UInt16)
  | [] => .ok []
  | w :: ws =>
      match l.index? w with
      | none => .error (.wordNotFound w p)
      | some i => (indicesFrom (p + 1) ws).map (i :: ·)

def indices (ws : List String) : Except Error (List UInt16) :=
  l.indicesFrom 0 ws

/-- A description that shows the first and the last word. -/
def describe : String :=
  "WordList \x7b first: Some(" ++ Text.Quoted.text (l.word 0) ++
    "), last: Some(" ++ Text.Quoted.text (l.word 2047) ++ "), .. \x7d"

-- ============================================ what look-up guarantees

variable {l}

/-- A list has the words that it is made from. -/
theorem words_of_ofWords {ws : List String} (h : ofWords ws = .ok l) :
    l.words = ws := by
  unfold ofWords at h
  split at h
  · cases h
    rfl
  · contradiction

/-- A list made from words finds a word at its first position. -/
theorem index?_of_ofWords {ws : List String} (h : ofWords ws = .ok l) (w : String) :
    l.index? w = (ws.idxOf? w).map Index.ofPosition := by
  unfold ofWords at h
  split at h
  · cases h
    exact Index.ofFirst_getElem? ws w
  · contradiction

/-- A list made from a table finds a word at its last position. -/
theorem index?_ofTable {ws : List String} (h : ws.length = 2048) (w : String) :
    (ofTable ws h).index? w = (Index.lastPosition? w ws).map Index.ofPosition :=
  Index.ofLast_getElem? ws w

theorem word?_word (i : Fin 2048) : l.word? i = some (l.word i) := by
  simp [word?, word]

theorem contains_iff_mem {w : String} :
    l.contains w = true ↔ w ∈ l.words := by
  constructor
  · intro h
    have hsome : (l.index[w]?).isSome := by
      rw [Std.TreeMap.isSome_getElem?_iff_mem]
      exact h
    obtain ⟨i, hi⟩ := Option.isSome_iff_exists.1 hsome
    exact List.mem_of_getElem? (l.serves.sound hi)
  · exact fun h => l.serves.complete h

/-- A position is found for the words of the list, and for no others. -/
theorem isSome_index?_iff_mem {w : String} :
    (l.index? w).isSome ↔ w ∈ l.words := by
  rw [← contains_iff_mem, index?, Std.TreeMap.isSome_getElem?_iff_mem]
  exact Iff.rfl

/-- At the position found stands the word. -/
theorem word?_of_index? {w : String} {i : UInt16} (h : l.index? w = some i) :
    l.word? i.toNat = some w :=
  l.serves.sound h

/-- Positions found are below 2048. -/
theorem index?_lt {w : String} {i : UInt16} (h : l.index? w = some i) :
    i.toNat < 2048 := by
  obtain ⟨hlt, -⟩ := List.getElem?_eq_some_iff.1 (word?_of_index? h)
  rw [l.length_words] at hlt
  exact hlt

end WordList

end Mnemonic
