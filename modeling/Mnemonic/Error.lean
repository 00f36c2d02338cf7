/-
Why a sentence, an abbreviation or a word list is refused: one
constructor for each cause, and the text that reports it. Words go into
the text as they are, without quoting, whatever they hold.
-/
namespace Mnemonic

/-- A cause of refusal. -/
inductive Error where
  /-- A sentence has a number of words that no entropy encodes to. -/
  | wordCount (count : Nat)
  /-- A token of a sentence is no word of the list; positions count from
  zero. -/
  | wordNotFound (word : String) (position : Nat)
  /-- The checksum bits of a sentence are not those of its entropy. -/
  | checksum
  /-- A word list does not have 2048 entries. -/
  | listLength (count : Nat)
  /-- A token that is no list word has too few characters for an
  abbreviation. -/
  | tooShort (token : String) (least : Nat)
  | unknown (token : String)
  /-- The words at several positions begin with the token. -/
  | ambiguous (token : String) (candidates : List String)
deriving DecidableEq, Repr

namespace Error

/-- The words of a list one after another with a comma and a space
between them. -/
def commaSeparated (ws : List String) : String :=
  String.ofList ([',', ' '].intercalate (ws.map String.toList))

def message : Error → String
  | wordCount n =>
      "invalid mnemonic: " ++ toString n ++ " words, must be 12, 15, 18, 21, or 24"
  | wordNotFound w p =>
      "word \"" ++ w ++ "\" at position " ++ toString p ++ " is not in the word list"
  | checksum => "checksum incorrect"
  | listLength n => "word list has " ++ toString n ++ " entries, expected 2048"
  | tooShort t n =>
      "prefix \"" ++ t ++ "\" is too short (minimum " ++ toString n ++ " characters)"
  | unknown t => "prefix \"" ++ t ++ "\" does not match any word"
  | ambiguous t ws =>
      "prefix \"" ++ t ++ "\" is ambiguous, matches: " ++ commaSeparated ws

example : (ambiguous "abou" ["about", "above"]).message
    = "prefix \"abou\" is ambiguous, matches: about, above" := by decide +kernel

-- ============================================ answers seen in part

variable {α β : Type} {f : α → β} {x : Except Error α}

/-- A mapped answer comes from an answer. -/
theorem map_eq_ok_iff {b : β} :
    x.map f = .ok b ↔ ∃ a, x = .ok a ∧ f a = b := by
  cases x with
  | error e =>
      refine ⟨fun h => ?_, fun h => ?_⟩
      · cases h
      · obtain ⟨a, ha, -⟩ := h
        cases ha
  | ok a =>
      refine ⟨fun h => ?_, fun h => ?_⟩
      · cases h
        exact ⟨a, rfl, rfl⟩
      · obtain ⟨a', ha, rfl⟩ := h
        cases ha
        rfl

/-- A part of an answer is there exactly if the answer is. -/
theorem exists_map_eq_ok_iff :
    (∃ b, x.map f = .ok b) ↔ ∃ a, x = .ok a := by
  refine ⟨fun h => ?_, fun h => ?_⟩
  · obtain ⟨b, hb⟩ := h
    obtain ⟨a, ha, -⟩ := map_eq_ok_iff.1 hb
    exact ⟨a, ha⟩
  · obtain ⟨a, ha⟩ := h
    exact ⟨f a, map_eq_ok_iff.2 ⟨a, ha, rfl⟩⟩

/-- Mapping answers leaves errors alone. -/
theorem map_eq_error_iff {e : Error} :
    x.map f = .error e ↔ x = .error e := by
  cases x with
  | error d =>
      show Except.error d = Except.error e ↔ _
      rw [Except.error.injEq, Except.error.injEq]
  | ok a =>
      refine ⟨fun h => ?_, fun h => ?_⟩
      · cases h
      · cases h

end Error

end Mnemonic
