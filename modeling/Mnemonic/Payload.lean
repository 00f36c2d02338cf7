/-
What a sentence carries: the entropy, and the checksum at its end. A
payload is split off a number of the sentence's width, whose low bits
are the checksum and whose other bits are the entropy, written out to
its full length with leading zeros.

Splitting guards two things, each with a fault of its own: the number
must not be wider than the sentence, and the checksum must fit a byte.
-/
import Mnemonic.WordCount
import Mnemonic.Numeral.Bytes

namespace Mnemonic

open Numeral

/-- The content of a sentence. -/
structure Payload where
  entropy : List UInt8
  /-- The checksum bits, as the low bits of a byte. -/
  checksum : UInt8
deriving DecidableEq, Repr

namespace Payload

/-- Why a number holds no payload of some length. -/
inductive Fault where
  /-- The number has more bits than the words stand for. -/
  | tooWide
  | wideChecksum
deriving DecidableEq, Repr

/-- A number as one byte, if it fits. -/
def byte? (n : Nat) : Option UInt8 :=
  if n < 256 then some (UInt8.ofNat n) else none

/-- The payload that a number holds, or the guard that it fails. -/
def ofNat (v : Nat) (c : WordCount) : Except Fault Payload :=
  if Bytes.bitLength v > c.totalBits then .error .tooWide
  else
    match byte? (v &&& c.checksumMask.toNat) with
    | none => .error .wideChecksum
    | some checksum =>
        .ok ⟨Bytes.leftPad (Bytes.minimal (v >>> c.checksumBits)) c.entropyBytes, checksum⟩

/-- The payload that a number holds; either fault refuses the word
count. -/
def split (v : Nat) (c : WordCount) : Except Error Payload :=
  (ofNat v c).mapError fun _ => .wordCount c.words

/-- The bytes of a payload: the entropy, then the checksum byte. -/
def bytes (p : Payload) : List UInt8 := p.entropy ++ [p.checksum]

/-- A description that shows the checksum but only the length of the
entropy. -/
def describe (p : Payload) : String :=
  "Split \x7b entropy_len: " ++ toString p.entropy.length ++
    ", checksum: " ++ toString p.checksum.toNat ++ " \x7d"

end Payload

end Mnemonic
