/-
The checksum as the first bits of a digest.

Computing a checksum shifts the first byte of the digest down, which
leaves as many of its high bits as the sentence has checksum bits, at
most eight. So the checksum's bits are the front of the digest's bits
(`bits_compute`), and the number they write is the checksum
(`toNat_compute`). As a number it is a quotient of the first byte, by a
smaller power of two the more words there are (`toNat_compute_eq_div`),
so that no other number has its place among the quotients
(`interval_iff`), and the checksum for a shorter sentence is what is
left of that for a longer one when its last bits are dropped
(`toNat_compute_of_lt`). Nothing is used of the hash function.
-/
import Mnemonic.Checksum
import Mnemonic.Proofs.Payload
import Mnemonic.Sha256

namespace Mnemonic.Checksum

open Numeral

/-- The bits of a digest begin with those of its first byte. -/
theorem take_ofBytes_digest (d : Digest) {k : Nat} (h : k ≤ 8) :
    (Bits.ofBytes d.toList).take k
      = Bits.ofNat k (d.first.toNat / 2 ^ (8 - k)) := by
  have hlen : d.toList.length = 32 := Vector.length_toList
  have hfirst : d.first = d.toList[0] := (Vector.getElem_toList ..).symm
  cases hd : d.toList with
  | nil =>
      rw [hd] at hlen
      cases hlen
  | cons b bs =>
      have hbits : Bits.ofBytes (b :: bs)
          = Bits.ofNat 8 b.toNat ++ Bits.ofBytes bs := rfl
      have hb : d.first = b := by simp [hfirst, hd]
      have hle : k ≤ (Bits.ofNat 8 b.toNat).length := by
        rw [Bits.length_ofNat]
        exact h
      rw [hbits, List.take_append_of_le_length hle, Bits.take_ofNat h, hb]

variable (H : Hash) (entropy : List UInt8) (c : WordCount)

/-- The shift leaves the high bits of the digest's first byte. -/
theorem toNat_compute_eq_div :
    (compute H entropy c).toNat
      = (H entropy).first.toNat / 2 ^ (8 - c.checksumBits) := by
  have hshift : (UInt8.ofNat c.checksumShift).toNat % 8
      = 8 - c.checksumBits := by
    cases c <;> rfl
  unfold compute
  rw [UInt8.toNat_shiftRight, hshift, Nat.shiftRight_eq_div_pow]

/-- The checksum has no more bits than its sentence has for it. -/
theorem compute_lt :
    (compute H entropy c).toNat < 2 ^ c.checksumBits := by
  rw [toNat_compute_eq_div, Nat.div_lt_iff_lt_mul (Nat.two_pow_pos _),
    ← Nat.pow_add, Nat.add_sub_cancel' c.checksumBits_le.2]
  exact UInt8.toNat_lt _

/-- The bits of the checksum are the first bits of the digest. -/
theorem bits_compute :
    Bits.ofNat c.checksumBits (compute H entropy c).toNat
      = (Bits.ofBytes (H entropy).toList).take c.checksumBits := by
  rw [take_ofBytes_digest _ c.checksumBits_le.2, toNat_compute_eq_div]

/-- The checksum is the number that the first bits of the digest
write. -/
theorem toNat_compute :
    (compute H entropy c).toNat
      = Bits.value
          ((Bits.ofBytes (H entropy).toList).take c.checksumBits) := by
  rw [← bits_compute, Bits.value_ofNat,
    Nat.mod_eq_of_lt (compute_lt H entropy c)]

-- ======================================================== one and no other

/-- The number of which the first byte of the digest is at least so many
widths, and less than one more. -/
theorem interval_iff {k : Nat} :
    k * 2 ^ (8 - c.checksumBits) ≤ (H entropy).first.toNat
        ∧ (H entropy).first.toNat < (k + 1) * 2 ^ (8 - c.checksumBits)
      ↔ k = (compute H entropy c).toNat := by
  have hpos : 0 < 2 ^ (8 - c.checksumBits) := Nat.two_pow_pos _
  -- both bounds say that the number is the quotient
  rw [toNat_compute_eq_div, ← Nat.le_div_iff_mul_le hpos,
    ← Nat.div_lt_iff_lt_mul hpos]
  omega

/-- A longer sentence takes more of the same bits. -/
theorem toNat_compute_of_lt {d : WordCount} (h : c.words < d.words) :
    (compute H entropy c).toNat
      = (compute H entropy d).toNat >>> ((d.words - c.words) / 3) := by
  have hwidth : 8 - c.checksumBits
      = (8 - d.checksumBits) + (d.words - c.words) / 3 := by
    revert h
    cases c <;> cases d <;> decide
  rw [Nat.shiftRight_eq_div_pow, toNat_compute_eq_div,
    toNat_compute_eq_div, Nat.div_div_eq_div_mul, ← Nat.pow_add, hwidth]

/-- Every other checksum is refused. -/
theorem verify_of_ne {k : UInt8} (h : k ≠ compute H entropy c) :
    verify H entropy c k = .error .checksum := by
  unfold verify
  exact if_neg h.symm

/-- Of the bytes exactly one is the checksum of some entropy for a
length, and every other is refused. It has no more bits than the length
has for it, and these are the first bits of the digest: it counts how
often the width of what is shifted out goes into the first byte. For a
shorter length it is the checksum for a longer one without its last
bits. -/
theorem verify_accepts_one (H : Hash) (entropy : List UInt8)
    (c : WordCount) :
    let bits := c.words / 3
    let k := compute H entropy c
    let first := (H entropy).first.toNat
    (∀ b, verify H entropy c b = .ok () ↔ b = k)
      ∧ (∀ b, b ≠ k → verify H entropy c b = .error .checksum)
      ∧ k.toNat < 2 ^ bits
      ∧ Bits.ofNat bits k.toNat
        = (Bits.ofBytes (H entropy).toList).take bits
      ∧ (∀ m, m * 2 ^ (8 - bits) ≤ first
            ∧ first < (m + 1) * 2 ^ (8 - bits)
          ↔ m = k.toNat)
      ∧ ∀ d : WordCount, c.words < d.words →
          k.toNat
            = (compute H entropy d).toNat >>> ((d.words - c.words) / 3) := by
  intro bits k first
  refine ⟨fun b => ?_, fun b hb => verify_of_ne H entropy c hb,
    compute_lt H entropy c, bits_compute H entropy c,
    fun m => interval_iff H entropy c,
    fun d hd => toNat_compute_of_lt H entropy c hd⟩
  rw [verify_eq_ok_iff]
  exact eq_comm

/-- No bytes at all have a checksum for every length: the digest begins
with 227, of which the twelve words keep the upper half. -/
theorem verify_accepts_one_empty :
    (sha256 []).first = 227
      ∧ verify sha256 [] .twentyFour 227 = .ok ()
      ∧ verify sha256 [] .twelve 14 = .ok ()
      ∧ verify sha256 [] .twelve 227 = .error .checksum
      ∧ (compute sha256 [] .twelve).toNat = 227 >>> 4 := by
  have hfirst : (sha256 []).first = 227 := by decide +kernel
  have hlong : compute sha256 [] .twentyFour = 227 := by
    apply UInt8.toNat_inj.1
    rw [toNat_compute_eq_div, hfirst]
    rfl
  have hshort : compute sha256 [] .twelve = 14 := by
    apply UInt8.toNat_inj.1
    rw [toNat_compute_eq_div, hfirst]
    rfl
  obtain ⟨hall, -⟩ := verify_accepts_one sha256 [] .twentyFour
  obtain ⟨htwelve, hrefused, -, -, -, hshift⟩ :=
    verify_accepts_one sha256 [] .twelve
  refine ⟨hfirst, (hall 227).2 hlong.symm,
    (htwelve 14).2 hshort.symm, hrefused 227 ?_, ?_⟩
  · rw [hshort]
    decide
  · have hbits := hshift .twentyFour (by decide)
    rw [hlong] at hbits
    exact hbits

end Mnemonic.Checksum
