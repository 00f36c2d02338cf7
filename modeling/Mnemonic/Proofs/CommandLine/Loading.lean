/-
Which word list a source yields.

A language yields the list that the surroundings hold for it, and
nothing can go wrong. A file may be one that cannot be read, or list too
few or too many words; else it yields the list of the words that its
text lists. `Loading` has a constructor for each of these ends, with
what it takes to get there, and says of a list that was loaded which
words it has and how it answers for them. Loading a source always ends
in one of the four ways (`loading_load`), so that a command is given
this list or this failure and no other.
-/
import Mnemonic.CommandLine.Run
import Mnemonic.Proofs.WordList.Reading

namespace Mnemonic.CommandLine

variable {env : Environment} {path text : String} {ws : List String}
variable {e : FileError}

/-- The ends of loading a source and what brings them about. -/
inductive Environment.Loading (env : Environment) :
    Source → Except Failure WordList → Prop where
  /-- A language has its list. -/
  | language (language : Language) :
      env.Loading (.bundled language) (.ok (env.vocabulary language))
  /-- A file that cannot be read fails as reading it does. -/
  | unreadable {path : String} {e : FileError} :
      env.read path = .error e →
      env.Loading (.file path) (.error (.file e))
  /-- A text that does not list 2048 words is refused with their
  number. -/
  | miscounted {path text : String} {ws : List String} :
      env.read path = .ok text → Text.AreListed ws text →
      ws.length ≠ 2048 →
      env.Loading (.file path) (.error (.refusal (.listLength ws.length)))
  /-- A text that lists 2048 words gives a list of them, in which each
  is found at the first of its positions. -/
  | listed {path text : String} {l : WordList} :
      env.read path = .ok text → Text.AreListed l.words text →
      l.Represents l.words → env.Loading (.file path) (.ok l)

/-- A file that cannot be read is not loaded, for the same cause. -/
theorem load_of_unreadable (hread : env.read path = .error e) :
    env.load (.file path) = .error (.file e) := by
  unfold Environment.load
  simp only [hread]

/-- A file whose text lists too few or too many words is refused for
their number. -/
theorem load_of_miscounted (hread : env.read path = .ok text)
    (hws : Text.AreListed ws text) (hlen : ws.length ≠ 2048) :
    env.load (.file path) = .error (.refusal (.listLength ws.length)) := by
  have htext : WordList.ofText text = .error (.listLength ws.length) := by
    rw [WordList.ofText_eq_ofWords hws, WordList.ofWords_eq_error_iff]
    exact ⟨hlen, rfl⟩
  unfold Environment.load
  simp only [hread, htext]
  rfl

/-- A file whose text lists 2048 words yields a list of these words. -/
theorem load_of_listed (hread : env.read path = .ok text)
    (hws : Text.AreListed ws text) (hlen : ws.length = 2048) :
    ∃ l, env.load (.file path) = .ok l ∧ l.words = ws
      ∧ l.Represents ws := by
  obtain ⟨l, hl⟩ := WordList.exists_ofWords hlen
  have htext : WordList.ofText text = .ok l :=
    (WordList.ofText_eq_ofWords hws).trans hl
  refine ⟨l, ?_, WordList.words_of_ofWords hl,
    WordList.represents_of_ofWords hl⟩
  unfold Environment.load
  simp only [hread, htext]
  rfl

/-- Loading ends in one of the four ways, whatever the source. -/
theorem loading_load (env : Environment) (source : Source) :
    env.Loading source (env.load source) := by
  cases source with
  | bundled language => exact .language language
  | file path =>
      cases hread : env.read path with
      | error e =>
          rw [load_of_unreadable hread]
          exact .unreadable hread
      | ok text =>
          have hws : Text.AreListed (Text.entries text) text :=
            Text.areListed_iff.2 rfl
          -- a text always lists some words, so their number decides
          by_cases hlen : (Text.entries text).length = 2048
          · obtain ⟨l, hload, hwords, hrep⟩ :=
              load_of_listed hread hws hlen
            rw [← hwords] at hws hrep
            rw [hload]
            exact .listed hread hws hrep
          · rw [load_of_miscounted hread hws hlen]
            exact .miscounted hread hws hlen

end Mnemonic.CommandLine
