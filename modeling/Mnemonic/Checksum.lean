/-
The checksum of some entropy: the first bits of its digest, as the low
bits of a byte. A longer sentence takes more of the same bits.
-/
import Mnemonic.Digest
import Mnemonic.Payload

namespace Mnemonic.Checksum

/-- The checksum of some bytes in a sentence of the given length. -/
def compute (H : Hash) (entropy : List UInt8) (c : WordCount) : UInt8 :=
  (H entropy).first >>> UInt8.ofNat c.checksumShift

/-- Accepts the checksum of the given bytes and refuses every other. -/
def verify (H : Hash) (entropy : List UInt8) (c : WordCount) (checksum : UInt8) :
    Except Error Unit :=
  if compute H entropy c = checksum then .ok () else .error .checksum

/-- A checksum is accepted exactly if it is the one computed. -/
theorem verify_eq_ok_iff {H : Hash} {entropy : List UInt8} {c : WordCount} {k : UInt8} :
    verify H entropy c k = .ok () ↔ compute H entropy c = k := by
  unfold verify
  split <;> simp_all

end Mnemonic.Checksum
