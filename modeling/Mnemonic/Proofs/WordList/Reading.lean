/-
What list a text is read as.

A text says which words it lists: those that are left of the pieces
between its line feeds when blanks are taken off their ends and blank
pieces are passed over. Reading the text and making a list of these
words are one thing, whether it succeeds or the words are too few or too
many (`ofText_eq_ofWords`). So how the lines are written can be changed
at will, and a list that was read can be written out, a word to a line,
and read again: its words can be entries, since they were.
-/
import Mnemonic.Proofs.Text.Entries
import Mnemonic.Proofs.WordList.Correspondence

namespace Mnemonic.WordList

variable {l : WordList} {ws : List String} {text : String}

/-- A text is read as the words that it lists. -/
theorem ofText_eq_ofWords (h : Text.AreListed ws text) :
    ofText text = ofWords ws := by
  rw [Text.areListed_iff.1 h]
  rfl

/-- A list that was read has the words of its text. -/
theorem words_of_ofText (h : ofText text = .ok l) :
    l.words = Text.entries text :=
  words_of_ofWords h

/-- Words that can be entries, written one to a line, are read as a list
of them. -/
theorem ofText_of_isOnePerLine (h : Text.IsOnePerLine ws text)
    (hws : ∀ w ∈ ws, Text.IsEntry w) : ofText text = ofWords ws := by
  unfold ofText
  rw [Text.entries_of_isOnePerLine h hws]

/-- Reading sees the entries of a text only. -/
theorem ofText_of_relined {other : String}
    (h : Relation.EqvGen Text.Relined text.toList other.toList) :
    ofText other = ofText text := by
  unfold ofText Text.entries
  rw [Text.entriesOf_of_eqvGen h]

/-- Every text lists one sequence of words, and is read as the list of
these words, which answers for them, if there are 2048, and refused with
their number if not.
Carriage returns in front of line feeds, blanks at the ends of lines,
blank lines and a last line feed change nothing of this, put in or taken
out any number of times. What is read can all be entries, and written
one to a line it is read as the same list again. -/
theorem ofText_reads_entries (text : String) :
    ∃ ws, (∀ vs, Text.AreListed vs text ↔ vs = ws)
      ∧ (ws.length ≠ 2048 →
          ofText text = .error (.listLength ws.length))
      ∧ (ws.length = 2048 →
          ∃ l, ofText text = .ok l ∧ ofWords ws = .ok l
            ∧ l.words = ws ∧ Represents l ws)
      ∧ (∀ other : String,
          Relation.EqvGen Text.Relined text.toList other.toList →
          ofText other = ofText text)
      ∧ ∀ l, ofText text = .ok l →
          (∀ w ∈ l.words, Text.IsEntry w)
            ∧ ofText ("\n".intercalate l.words) = .ok l := by
  have hread : ofText text = ofWords (Text.entries text) :=
    ofText_eq_ofWords (Text.areListed_iff.2 rfl)
  refine ⟨Text.entries text, fun vs => Text.areListed_iff, fun hlen => ?_,
    fun hlen => ?_, fun other => ofText_of_relined, fun l hl => ?_⟩
  · rw [hread, ofWords_eq_error_iff]
    exact ⟨hlen, rfl⟩
  · obtain ⟨l, hl⟩ := exists_ofWords hlen
    exact ⟨l, hread.trans hl, hl, words_of_ofWords hl,
      represents_of_ofWords hl⟩
  · have hwords : l.words = Text.entries text := words_of_ofText hl
    have hentry : ∀ w ∈ l.words, Text.IsEntry w := by
      intro w hw
      rw [hwords] at hw
      exact Text.isEntry_of_mem_entries hw
    have hlines : Text.IsOnePerLine l.words ("\n".intercalate l.words) :=
      Text.isOnePerLine_intercalate l.words (Or.inl rfl)
    refine ⟨hentry, ?_⟩
    rw [ofText_of_isOnePerLine hlines hentry, hwords, ← hread]
    exact hl

end Mnemonic.WordList
