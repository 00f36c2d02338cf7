/-
What a payload holds of the number it is split off.

Splitting succeeds exactly on the numbers that are no wider than the
sentence, and then the checksum is the number's low bits and the entropy
the other bits, written out to its full length (`ofNat_eq`). Of the two
guards only the first can fail: the mask never leaves more than a byte.
Payloads of a length and numbers of its width come in pairs: what a
number holds has the number for its own (`number_held`), and what a
payload's number holds is the payload (`held_number`).

Read as bits, entropy first and checksum behind it, the payload is the
number at the full width of the sentence (`bits_held`), hence for a
packed number the bits of the positions in their order
(`bits_held_pack`). The number, its bytes and its positions lose leading
zeros at different places, but the bit string has a fixed length and
loses nothing: that is what the round trips below rest on.
-/
import Mathlib.Logic.ExistsUnique
import Mnemonic.Payload
import Mnemonic.Proofs.Numeral.Regrouping

namespace Mnemonic

open Numeral

-- ======================================================= the accounts

namespace WordCount

/-- The bits of a sentence are those of its entropy, eight to a byte,
and those of its checksum. -/
theorem totalBits_eq (c : WordCount) :
    c.totalBits = 8 * c.entropyBytes + c.checksumBits := by
  rw [← entropyBits_eq, entropyBits_add_checksumBits]

/-- Three words carry four bytes of entropy. -/
theorem entropyBytes_eq (c : WordCount) :
    c.entropyBytes = 4 * c.words / 3 := by
  cases c <;> rfl

/-- One checksum bit goes with four bytes. -/
theorem entropyBytes_div (c : WordCount) :
    c.entropyBytes / 4 = c.checksumBits := by
  cases c <;> rfl

/-- The mask has all the bits of the checksum set, and no other. -/
theorem toNat_checksumMask (c : WordCount) :
    c.checksumMask.toNat = 2 ^ c.checksumBits - 1 := by
  cases c <;> rfl

theorem two_pow_checksumBits_le (c : WordCount) :
    2 ^ c.checksumBits ≤ 256 :=
  Nat.pow_le_pow_right (by omega) c.checksumBits_le.2

end WordCount

namespace Payload

variable {p q : Payload} {c : WordCount}

-- =================================================== payloads as bits

/-- A payload is of a length when its entropy has the bytes and its
checksum no more than the bits of that length. -/
structure Fits (p : Payload) (c : WordCount) : Prop where
  entropy : p.entropy.length = c.entropyBytes
  checksum : p.checksum.toNat < 2 ^ c.checksumBits

/-- The bits of a payload: those of its bytes, then those of its
checksum. -/
def bits (p : Payload) (c : WordCount) : List Bool :=
  Bits.ofBytes p.entropy ++ Bits.ofNat c.checksumBits p.checksum.toNat

theorem length_bits (h : p.Fits c) :
    (p.bits c).length = c.totalBits := by
  unfold bits
  rw [List.length_append, Bits.length_ofBytes, Bits.length_ofNat,
    h.entropy, c.totalBits_eq]

/-- A payload is determined by its bits. -/
theorem bits_injective (hp : p.Fits c) (hq : q.Fits c)
    (h : p.bits c = q.bits c) : p = q := by
  have hlen : (Bits.ofBytes p.entropy).length
      = (Bits.ofBytes q.entropy).length := by
    rw [Bits.length_ofBytes, Bits.length_ofBytes, hp.entropy, hq.entropy]
  obtain ⟨hentropy, hchecksum⟩ := List.append_inj h hlen
  have hbytes : p.entropy = q.entropy := Bytes.ofBytes_injective hentropy
  have hvalue : p.checksum.toNat = q.checksum.toNat := by
    have hbits := congrArg Bits.value hchecksum
    rw [Bits.value_ofNat, Bits.value_ofNat] at hbits
    rwa [Nat.mod_eq_of_lt hp.checksum,
      Nat.mod_eq_of_lt hq.checksum] at hbits
  have hbyte : p.checksum = q.checksum := UInt8.toNat_inj.1 hvalue
  cases p
  cases q
  subst hbytes
  subst hbyte
  rfl

-- ================================================ payloads of numbers

/-- The payload in the low bits of a number, as many as a sentence
has. -/
def held (v : Nat) (c : WordCount) : Payload where
  entropy := Bytes.ofNat c.entropyBytes (v / 2 ^ c.checksumBits)
  checksum := UInt8.ofNat (v % 2 ^ c.checksumBits)

/-- The checksum bits are no more than a byte. -/
theorem mod_two_pow_checksumBits_lt (v : Nat) (c : WordCount) :
    v % 2 ^ c.checksumBits < 256 :=
  calc v % 2 ^ c.checksumBits < 2 ^ c.checksumBits :=
        Nat.mod_lt _ (Nat.two_pow_pos _)
    _ ≤ 256 := c.two_pow_checksumBits_le

/-- The checksum that a number holds is its low bits. -/
theorem toNat_checksum_held (v : Nat) (c : WordCount) :
    (held v c).checksum.toNat = v % 2 ^ c.checksumBits :=
  UInt8.toNat_ofNat_of_lt' (mod_two_pow_checksumBits_lt v c)

/-- What a number holds always fits. -/
theorem fits_held (v : Nat) (c : WordCount) : (held v c).Fits c := by
  refine ⟨Bytes.length_ofNat _ _, ?_⟩
  rw [toNat_checksum_held]
  exact Nat.mod_lt _ (Nat.two_pow_pos _)

/-- Entropy and checksum are the number, leading zeros included. -/
theorem bits_held (v : Nat) (c : WordCount) :
    (held v c).bits c = Bits.ofNat c.totalBits v := by
  unfold bits
  rw [toNat_checksum_held, Bits.ofNat_mod, c.totalBits_eq, Bits.ofNat_add]
  show Bits.ofBytes (Bytes.ofNat _ _) ++ _ = _
  rw [Bytes.ofBytes_ofNat]

/-- The entropy is what is left of a number when its checksum bits are
taken off. -/
theorem value_entropy_held {v : Nat} (h : v < 2 ^ c.totalBits) :
    Bytes.value (held v c).entropy = v / 2 ^ c.checksumBits := by
  have hlt : v / 2 ^ c.checksumBits < 256 ^ c.entropyBytes := by
    rw [c.totalBits_eq, Nat.pow_add, ← Bytes.pow_eq] at h
    exact Nat.div_lt_of_lt_mul (by rwa [Nat.mul_comm])
  show Bytes.value (Bytes.ofNat _ _) = _
  rw [Bytes.value_ofNat, Nat.mod_eq_of_lt hlt]

/-- Entropy and checksum, as numbers, put the number together again. -/
theorem value_held {v : Nat} (h : v < 2 ^ c.totalBits) :
    Bytes.value (held v c).entropy * 2 ^ c.checksumBits
        + (held v c).checksum.toNat
      = v := by
  rw [value_entropy_held h, toNat_checksum_held, Nat.div_add_mod']

/-- A number holds a payload exactly if it is no wider than the
sentence. -/
theorem ofNat_eq (v : Nat) (c : WordCount) :
    ofNat v c
      = if v < 2 ^ c.totalBits then .ok (held v c) else .error .tooWide := by
  unfold ofNat
  by_cases hv : v < 2 ^ c.totalBits
  · have hle : Bytes.bitLength v ≤ c.totalBits :=
      Bytes.bitLength_le_iff.2 hv
    have hmask : v &&& c.checksumMask.toNat = v % 2 ^ c.checksumBits := by
      rw [WordCount.toNat_checksumMask, Nat.and_two_pow_sub_one_eq_mod]
    rw [if_neg (by omega), if_pos hv, hmask]
    unfold byte?
    rw [if_pos (mod_two_pow_checksumBits_lt v c), Bytes.leftPad_minimal,
      Nat.shiftRight_eq_div_pow]
    rfl
  · have hgt : ¬ Bytes.bitLength v ≤ c.totalBits := by
      intro hle
      exact hv (Bytes.bitLength_le_iff.1 hle)
    rw [if_pos (by omega), if_neg hv]

/-- A number holds the payload that it is split into, and a wider one is
refused as a word count. -/
theorem split_eq (v : Nat) (c : WordCount) :
    split v c
      = if v < 2 ^ c.totalBits then .ok (held v c)
        else .error (.wordCount c.words) := by
  unfold split
  rw [ofNat_eq]
  split <;> rfl

-- ================================================= numbers of payloads

/-- The number that a payload of a length is split off. -/
def number (p : Payload) (c : WordCount) : Nat :=
  Bytes.value p.entropy * 2 ^ c.checksumBits + p.checksum.toNat

/-- It is the number that the payload's bits write. -/
theorem value_bits (h : p.Fits c) : Bits.value (p.bits c) = p.number c := by
  unfold bits number
  rw [Bits.value_append, Bytes.value_ofBytes, Bits.length_ofNat,
    Bits.value_ofNat, Nat.mod_eq_of_lt h.checksum, Nat.mul_comm]

/-- The number of a payload that fits is within the width of its
sentence. -/
theorem number_lt (h : p.Fits c) : p.number c < 2 ^ c.totalBits := by
  rw [← value_bits h, ← length_bits h]
  exact Bits.value_lt _

/-- A number within the width is that of the payload it holds. -/
theorem number_held {v : Nat} (h : v < 2 ^ c.totalBits) :
    (held v c).number c = v :=
  value_held h

/-- A payload is held by its number. -/
theorem held_number (h : p.Fits c) : held (p.number c) c = p := by
  apply bits_injective (fits_held _ c) h
  rw [bits_held, ← value_bits h, ← length_bits h, Bits.ofNat_value]

/-- A number is split into a payload exactly if the payload is of the
length and the number is its number. -/
theorem split_eq_ok_iff {v : Nat} :
    split v c = .ok p ↔ p.Fits c ∧ v = p.number c := by
  rw [split_eq]
  refine ⟨fun h => ?_, fun h => ?_⟩
  · split at h
    · next hv =>
        cases h
        exact ⟨fits_held v c, (number_held hv).symm⟩
    · cases h
  · obtain ⟨hfits, rfl⟩ := h
    rw [if_pos (number_lt hfits), held_number hfits]

/-- A number is refused exactly if it is too wide, with the word
count. -/
theorem split_eq_error_iff {v : Nat} {e : Error} :
    split v c = .error e
      ↔ 2 ^ c.totalBits ≤ v ∧ e = .wordCount c.words := by
  rw [split_eq]
  split
  · next hv =>
      refine ⟨fun h => ?_, fun h => ?_⟩
      · cases h
      · exact absurd hv (Nat.not_lt.2 h.1)
  · next hv =>
      rw [Except.error.injEq, eq_comm, and_iff_right (Nat.not_lt.1 hv)]

/-- The checksum of a number always fits a byte. -/
theorem ofNat_ne_wideChecksum (v : Nat) (c : WordCount) :
    ofNat v c ≠ .error .wideChecksum := by
  rw [ofNat_eq]
  split
  · exact fun h => nomatch h
  · exact fun h => nomatch h

/-- Splitting divides a number at the checksum's width. It succeeds
exactly on the numbers of the sentence's width and refuses the others
for their words; the entropy is the quotient at its full length and the
checksum the remainder, with nothing lost of either. Every pair of
entropy and checksum of a length is split off exactly one number, and
the guard on the checksum stops none. -/
theorem split_divides (c : WordCount) :
    (∀ v, (∃ p, split v c = .ok p) ↔ v < 2 ^ (11 * c.words))
      ∧ (∀ v e, split v c = .error e
          ↔ ¬ v < 2 ^ (11 * c.words) ∧ e = .wordCount c.words)
      ∧ (∀ v p, split v c = .ok p →
          p.entropy.length = 4 * c.words / 3
            ∧ Bytes.value p.entropy = v / 2 ^ (c.words / 3)
            ∧ p.checksum.toNat = v % 2 ^ (c.words / 3)
            ∧ v = Bytes.value p.entropy * 2 ^ (c.words / 3)
                + p.checksum.toNat)
      ∧ (∀ (entropy : List UInt8) (checksum : UInt8),
          entropy.length = 4 * c.words / 3 →
          checksum.toNat < 2 ^ (c.words / 3) →
          ∃! v, v < 2 ^ (11 * c.words)
            ∧ split v c = .ok ⟨entropy, checksum⟩)
      ∧ ∀ v, ofNat v c ≠ .error .wideChecksum := by
  have hwidth : 11 * c.words = c.totalBits := Nat.mul_comm _ _
  rw [hwidth]
  refine ⟨fun v => ?_, fun v e => ?_, fun v p h => ?_,
    fun entropy checksum hentropy hchecksum => ?_,
    fun v => ofNat_ne_wideChecksum v c⟩
  · refine ⟨fun h => ?_, fun hv => ?_⟩
    · obtain ⟨p, hp⟩ := h
      obtain ⟨hfits, rfl⟩ := split_eq_ok_iff.1 hp
      exact number_lt hfits
    · exact ⟨held v c, by rw [split_eq, if_pos hv]⟩
  · rw [split_eq_error_iff, Nat.not_lt]
  · obtain ⟨hfits, rfl⟩ := split_eq_ok_iff.1 h
    -- a payload that was split off is that of its own number
    have hlt := number_lt hfits
    have hquotient := value_entropy_held hlt
    have hremainder := toNat_checksum_held (p.number c) c
    rw [held_number hfits] at hquotient hremainder
    exact ⟨hfits.entropy.trans c.entropyBytes_eq, hquotient, hremainder,
      rfl⟩
  · have hfits : Fits ⟨entropy, checksum⟩ c :=
      ⟨hentropy.trans c.entropyBytes_eq.symm, hchecksum⟩
    refine ⟨number ⟨entropy, checksum⟩ c,
      ⟨number_lt hfits, split_eq_ok_iff.2 ⟨hfits, rfl⟩⟩, ?_⟩
    intro v hv
    exact (split_eq_ok_iff.1 hv.2).2

/-- At twelve words the greatest number is split into full bytes, the
next one is refused, and sixteen zero bytes come of one number only with
each checksum. -/
theorem split_divides_twelve :
    (∃ p, split (2 ^ 132 - 1) .twelve = .ok p
        ∧ p.entropy.length = 16
        ∧ Bytes.value p.entropy = 2 ^ 128 - 1
        ∧ p.checksum.toNat = 15)
      ∧ split (2 ^ 132) .twelve = .error (.wordCount 12)
      ∧ ∃! v, v < 2 ^ 132
        ∧ split v .twelve = .ok ⟨List.replicate 16 0, 3⟩ := by
  obtain ⟨hok, herror, hparts, hunique, -⟩ := split_divides .twelve
  obtain ⟨p, hp⟩ := (hok (2 ^ 132 - 1)).2 (by decide)
  obtain ⟨hlength, hentropy, hchecksum, -⟩ := hparts _ p hp
  refine ⟨⟨p, hp, hlength, hentropy.trans (by decide),
    hchecksum.trans (by decide)⟩, ?_, ?_⟩
  · exact (herror _ _).2 ⟨by decide, rfl⟩
  · exact hunique (List.replicate 16 0) 3 rfl (by decide)

-- ========================================= payloads of packed numbers

variable {is : List UInt16}

/-- Positions of a sentence pack to a number within its width. -/
theorem pack_lt_totalBits (hlen : is.length = c.words)
    (h : Indices.Fits is) : Indices.pack is < 2 ^ c.totalBits := by
  have hlt := Indices.pack_lt h
  rwa [hlen, Nat.mul_comm] at hlt

/-- The payload of packed positions has the bits of the positions. -/
theorem bits_held_pack (hlen : is.length = c.words)
    (h : Indices.Fits is) :
    (held (Indices.pack is) c).bits c = Indices.bits is := by
  have htotal : c.totalBits = (Indices.bits is).length := by
    rw [Indices.length_bits, hlen, Nat.mul_comm]
    rfl
  rw [bits_held, htotal, Indices.pack_eq_value h, Bits.ofNat_value]

/-- The packed number of a sentence meets neither guard. -/
theorem ofNat_pack (hlen : is.length = c.words) (h : Indices.Fits is) :
    ofNat (Indices.pack is) c = .ok (held (Indices.pack is) c) := by
  rw [ofNat_eq, if_pos (pack_lt_totalBits hlen h)]

/-- A sentence's packed number is split into what it holds. -/
theorem split_pack (hlen : is.length = c.words) (h : Indices.Fits is) :
    split (Indices.pack is) c = .ok (held (Indices.pack is) c) := by
  unfold split
  rw [ofNat_pack hlen h]
  rfl

/-- Every payload of a length is split off the positions that its bits
make. -/
theorem split_pack_ofBits (h : p.Fits c) :
    split (Indices.pack (Indices.ofBits c.words (p.bits c))) c
      = .ok p := by
  have hlen : (Indices.ofBits c.words (p.bits c)).length = c.words :=
    Indices.length_ofBits _ _
  have hfits : Indices.Fits (Indices.ofBits c.words (p.bits c)) :=
    Indices.fits_ofBits _ _
  have hbits : (p.bits c).length = bitsPerWord * c.words := by
    rw [length_bits h, Nat.mul_comm]
    rfl
  have heq : held (Indices.pack (Indices.ofBits c.words (p.bits c))) c
      = p := by
    apply bits_injective (fits_held _ _) h
    rw [bits_held_pack hlen hfits, Indices.bits_ofBits hbits]
  rw [split_pack hlen hfits, heq]

/-- Packing positions and splitting the number regroups their bits:
eleven a position become eight a byte, with the checksum's at the end.
Each payload arises from one sequence of positions alone. -/
theorem split_pack_regroups_bits (c : WordCount) :
    (∀ is : List UInt16, is.length = c.words →
        (∀ i ∈ is, i.toNat < 2048) →
        ∃ p, split (Indices.pack is) c = .ok p
          ∧ p.entropy.length = 4 * c.words / 3
          ∧ p.checksum.toNat < 2 ^ (c.words / 3)
          ∧ Bits.ofBytes p.entropy
                ++ Bits.ofNat (c.words / 3) p.checksum.toNat
              = is.flatMap fun i => Bits.ofNat 11 i.toNat)
      ∧ ∀ (entropy : List UInt8) (checksum : UInt8),
          entropy.length = 4 * c.words / 3 →
          checksum.toNat < 2 ^ (c.words / 3) →
          ∃! is : List UInt16, is.length = c.words
            ∧ (∀ i ∈ is, i.toNat < 2048)
            ∧ split (Indices.pack is) c = .ok ⟨entropy, checksum⟩ := by
  refine ⟨?_, ?_⟩
  · intro is hlen h
    have hfits := fits_held (Indices.pack is) c
    refine ⟨held (Indices.pack is) c, split_pack hlen h, ?_, ?_, ?_⟩
    · rw [hfits.entropy, c.entropyBytes_eq]
    · exact hfits.checksum
    · exact bits_held_pack hlen h
  · intro entropy checksum hentropy hchecksum
    have hfits : Fits ⟨entropy, checksum⟩ c :=
      ⟨hentropy.trans c.entropyBytes_eq.symm, hchecksum⟩
    refine ⟨Indices.ofBits c.words (bits ⟨entropy, checksum⟩ c),
      ⟨Indices.length_ofBits _ _, Indices.fits_ofBits _ _,
        split_pack_ofBits hfits⟩, ?_⟩
    intro js hjs
    obtain ⟨hlen, hjfits, hsplit⟩ := hjs
    -- the payload's bits are those of any positions it is split off
    rw [split_pack hlen hjfits, Except.ok.injEq] at hsplit
    rw [← hsplit, bits_held_pack hlen hjfits, ← hlen,
      Indices.ofBits_bits hjfits]

theorem split_pack_regroups_bits_twelve :
    (∃ p, split (Indices.pack (List.replicate 11 0 ++ [2047])) .twelve
          = .ok p
        ∧ p.entropy.length = 16
        ∧ p.checksum.toNat < 2 ^ 4
        ∧ Bits.ofBytes p.entropy ++ Bits.ofNat 4 p.checksum.toNat
            = (List.replicate 11 (0 : UInt16) ++ [2047]).flatMap
                fun (i : UInt16) => Bits.ofNat 11 i.toNat)
      ∧ ∃! is : List UInt16, is.length = 12
          ∧ (∀ i ∈ is, i.toNat < 2048)
          ∧ split (Indices.pack is) .twelve
            = .ok ⟨0 :: 32 :: List.replicate 14 0, 15⟩ := by
  have hfits : ∀ i ∈ List.replicate 11 (0 : UInt16) ++ [2047],
      i.toNat < 2048 := by
    intro i hi
    rw [List.mem_append, List.mem_replicate, List.mem_singleton] at hi
    rcases hi with ⟨-, rfl⟩ | rfl
    · decide
    · decide
  refine ⟨?_, ?_⟩
  · exact (split_pack_regroups_bits .twelve).1
      (List.replicate 11 0 ++ [2047]) rfl hfits
  · exact (split_pack_regroups_bits .twelve).2
      (0 :: 32 :: List.replicate 14 0) 15 rfl (by decide)

end Payload

end Mnemonic
