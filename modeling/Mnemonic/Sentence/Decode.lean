/-
Decoding: from a sentence to the entropy it stands for.

The tokens of the sentence must be as many as one of the five lengths
has, each must be a word of the list, and the checksum at the end must
be that of the entropy in front of it. The three demands are made in
this order, and the first that fails is the one reported, the words
being looked at from left to right.

A hash function is a parameter throughout; the functions at the end of
the file take SHA-256.
-/
import Mnemonic.Checksum
import Mnemonic.Numeral.Indices
import Mnemonic.Sha256
import Mnemonic.Text.Token
import Mnemonic.WordList.Basic

namespace Mnemonic.Sentence

open Numeral

/-- The tokens of a sentence and the length they make, if they make
one. -/
def split (s : String) : Except Error (List String × WordCount) := do
  let words := Text.tokens s
  let count ← WordCount.ofCount words.length
  return (words, count)

variable (H : Hash) (l : WordList)

/-- The payload of a sentence, with the sentence's length. -/
def payloadWith (s : String) : Except Error (Payload × WordCount) := do
  let (words, count) ← split s
  let indices ← l.indices words
  let payload ← Payload.split (Indices.pack indices) count
  Checksum.verify H payload.entropy count payload.checksum
  return (payload, count)

/-- The entropy of a sentence. -/
def decodeWith (s : String) : Except Error (List UInt8) := do
  let (payload, _) ← payloadWith H l s
  return payload.entropy

/-- The entropy of a sentence, followed by a byte whose low bits are the
checksum. -/
def decodeBytesWith (s : String) : Except Error (List UInt8) := do
  let (payload, _) ← payloadWith H l s
  return payload.bytes

def validWith (s : String) : Bool :=
  match payloadWith H l s with
  | .ok _ => true
  | .error _ => false

-- ==================================================== with SHA-256

def decode (s : String) : Except Error (List UInt8) := decodeWith sha256 l s

/-- The entropy of a sentence, followed by its checksum byte. -/
def decodeBytes (s : String) : Except Error (List UInt8) :=
  decodeBytesWith sha256 l s

def valid (s : String) : Bool := validWith sha256 l s

end Mnemonic.Sentence
