/-
Encoding: from entropy to the words that stand for it. The bits of the
entropy and the first bits of its digest, one checksum bit for each four
bytes, are cut into groups of eleven, and each group names a word by its
position.
-/
import Mnemonic.Digest
import Mnemonic.Numeral.Bits
import Mnemonic.WordList.Basic

namespace Mnemonic.Sentence

open Numeral

variable (H : Hash)

/-- The bits of some entropy with its checksum behind them. -/
def checkedBits (entropy : List UInt8) : List Bool :=
  Bits.ofBytes entropy ++ (Bits.ofBytes (H entropy).toList).take (entropy.length / 4)

/-- How many words encode a number of bytes. -/
def wordsFor (bytes : Nat) : Nat := 3 * bytes / 4

/-- The positions of the words that encode some entropy. -/
def positionsWith (entropy : List UInt8) : List (Fin 2048) :=
  (Bits.groups 11 (wordsFor entropy.length) (checkedBits H entropy)).map fun g =>
    ⟨Bits.value g % 2048, Nat.mod_lt _ (by decide)⟩

/-- The words that encode some entropy. -/
def encodeWith (l : WordList) (entropy : List UInt8) : List String :=
  (positionsWith H entropy).map l.word

end Mnemonic.Sentence
