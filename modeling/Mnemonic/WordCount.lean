/-
The five lengths of a sentence, and how its bits divide. Each word
stands for eleven bits. Of every thirty-three bits the last goes to the
checksum, so `n` words carry `n / 3` checksum bits and `32 * (n / 3)`
bits of entropy, which are whole bytes.
-/
import Mnemonic.Error

namespace Mnemonic

/-- How many words a sentence has. -/
inductive WordCount where
  | twelve | fifteen | eighteen | twentyOne | twentyFour
deriving DecidableEq, Repr

/-- The bits that one word stands for. -/
def bitsPerWord : Nat := 11

namespace WordCount

/-- The five lengths, shortest first. -/
def all : List WordCount :=
  [twelve, fifteen, eighteen, twentyOne, twentyFour]

def words : WordCount → Nat
  | twelve => 12
  | fifteen => 15
  | eighteen => 18
  | twentyOne => 21
  | twentyFour => 24

/-- The length with the given number of words, if there is one. -/
def ofNat? (n : Nat) : Option WordCount := all.find? fun c => c.words == n

/-- The length with the given number of words, or the refusal of that
number. -/
def ofCount (n : Nat) : Except Error WordCount :=
  match ofNat? n with
  | some c => .ok c
  | none => .error (.wordCount n)

def totalBits (c : WordCount) : Nat := c.words * bitsPerWord

/-- The bits at the end of a sentence that check it. -/
def checksumBits (c : WordCount) : Nat := c.words / 3

/-- A byte whose low bits are set, as many as there are checksum
bits. -/
def checksumMask (c : WordCount) : UInt8 :=
  UInt8.ofNat ((1 <<< c.checksumBits) - 1)

/-- How far a byte is shifted down so that only its first checksum bits
remain. -/
def checksumShift (c : WordCount) : Nat := 8 - c.checksumBits

def entropyBits (c : WordCount) : Nat := c.totalBits - c.checksumBits

def entropyBytes (c : WordCount) : Nat := c.words / 3 * 4

/-- The place of a length among the five, from zero. -/
def position (c : WordCount) : Nat := all.idxOf c

def name : WordCount → String
  | twelve => "Twelve"
  | fifteen => "Fifteen"
  | eighteen => "Eighteen"
  | twentyOne => "TwentyOne"
  | twentyFour => "TwentyFour"

-- ==================================================== the accounts balance

theorem ofNat?_words (c : WordCount) : ofNat? c.words = some c := by
  cases c <;> rfl

/-- A number stands for a length exactly if the length has as many
words. -/
theorem ofNat?_eq_some_iff {n : Nat} {c : WordCount} :
    ofNat? n = some c ↔ c.words = n := by
  constructor
  · intro h
    simpa using List.find?_some h
  · rintro rfl
    exact ofNat?_words c

/-- A number stands for no length exactly if none has as many words. -/
theorem ofNat?_eq_none_iff {n : Nat} :
    ofNat? n = none ↔ ∀ c : WordCount, c.words ≠ n := by
  constructor
  · intro h c hc
    rw [ofNat?_eq_some_iff.2 hc] at h
    contradiction
  · intro h
    cases hn : ofNat? n with
    | none => rfl
    | some c => exact absurd (ofNat?_eq_some_iff.1 hn) (h c)

/-- A length is known by its number of words. -/
theorem words_injective {c d : WordCount} (h : c.words = d.words) :
    c = d := by
  cases c <;> cases d <;> first | rfl | (exact absurd h (by decide))

/-- Entropy and checksum make up the whole. -/
theorem entropyBits_add_checksumBits (c : WordCount) :
    c.entropyBits + c.checksumBits = c.totalBits := by
  cases c <;> rfl

/-- Entropy comes in whole bytes. -/
theorem entropyBits_eq (c : WordCount) :
    c.entropyBits = 8 * c.entropyBytes := by
  cases c <;> rfl

/-- The checksum fits one byte and is never empty. -/
theorem checksumBits_le (c : WordCount) :
    4 ≤ c.checksumBits ∧ c.checksumBits ≤ 8 := by
  cases c <;> decide

end WordCount

end Mnemonic
