/-
Abbreviations. A token stands for itself if it is a word of the list,
even where it also begins other words. Otherwise it must have at least
four characters and begin the word at exactly one position. A sentence
is expanded token by token from the left, and the first token that
stands for no word is the one reported; how many words there are and
whether they decode plays no part.
-/
import Mnemonic.Text.Token
import Mnemonic.WordList.Basic

namespace Mnemonic.Sentence

/-- The least number of characters of an abbreviation. -/
def leastAbbreviation : Nat := 4

def begins (t w : String) : Bool := t.toList.isPrefixOf w.toList

variable (l : WordList)

/-- The words that begin with a token, in list order, one for each
position. -/
def matching (t : String) : List String := l.words.filter (begins t)

/-- The list word that a token is. -/
def listed? (t : String) : Option String := do
  let i ← l.index? t
  l.word? i.toNat

/-- The word that a token abbreviates. -/
def unabbreviate (t : String) : Except Error String :=
  if t.length < leastAbbreviation then .error (.tooShort t leastAbbreviation)
  else
    match matching l t with
    | [] => .error (.unknown t)
    | [w] => .ok w
    | ws => .error (.ambiguous t ws)

/-- The word that a token stands for. -/
def resolve (t : String) : Except Error String :=
  match listed? l t with
  | some w => .ok w
  | none => unabbreviate l t

def resolveAll : List String → Except Error (List String)
  | [] => .ok []
  | t :: ts => do
      let w ← resolve l t
      let ws ← resolveAll ts
      return w :: ws

/-- A sentence with every token replaced by the word it stands for and
single spaces between. -/
def expand (s : String) : Except Error String :=
  (resolveAll l (Text.tokens s)).map Text.spaced

-- ========================================= words stand for themselves

variable {l}

/-- A token begins a word if its letters are the first letters of the
word. -/
theorem begins_iff {t w : String} :
    begins t w = true ↔ t.toList <+: w.toList := by
  simp [begins]

theorem listed?_of_mem {t : String} (h : t ∈ l.words) :
    listed? l t = some t := by
  obtain ⟨i, hi⟩ := Option.isSome_iff_exists.1 (WordList.isSome_index?_iff_mem.2 h)
  simp [listed?, hi, WordList.word?_of_index? hi]

theorem listed?_of_not_mem {t : String} (h : t ∉ l.words) :
    listed? l t = none := by
  cases hi : l.index? t with
  | none => simp [listed?, hi]
  | some i => exact absurd (WordList.isSome_index?_iff_mem.1 (by simp [hi])) h

/-- A listed token is resolved to itself. -/
theorem resolve_of_mem {t : String} (h : t ∈ l.words) :
    resolve l t = .ok t := by
  simp [resolve, listed?_of_mem h]

/-- Any other token is taken for an abbreviation. -/
theorem resolve_of_not_mem {t : String} (h : t ∉ l.words) :
    resolve l t = unabbreviate l t := by
  simp [resolve, listed?_of_not_mem h]

end Mnemonic.Sentence
