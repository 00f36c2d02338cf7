/-
Bytes and word positions as bit strings.

Both kinds of sequence are digits of one bit string, eight bits a byte
and eleven bits a position, most significant first. This file ties their
arithmetic to that view. The number some bytes write is the value of
their bits (`value_ofBytes`), and the packed number of some positions is
the value of theirs (`pack_eq_value`): the or of the packing never meets
a bit that is set, since each shift clears exactly the bits a position
takes.

For bytes this settles what a change of length does. Padding in front
and dropping in front are one operation on values: `leftPad` gives the
low `len` bytes of the number, whatever the length was before
(`leftPad_eq_ofNat`). Zeros that the minimal form leaves out come back
that way.
-/
import Mnemonic.Numeral.Bytes
import Mnemonic.Numeral.Indices
import Mnemonic.Proofs.Numeral.BitStrings

namespace Mnemonic.Numeral

-- ============================================================== bytes

namespace Bytes

/-- A number below `256 ^ len` reads back from its `len` bytes. -/
theorem value_ofNat (len n : Nat) :
    value (ofNat len n) = n % 256 ^ len := by
  induction len generalizing n with
  | zero =>
      rw [Nat.pow_zero, Nat.mod_one]
      rfl
  | succ len ih =>
      have hlow : (UInt8.ofNat n).toNat = n % 256 := UInt8.toNat_ofNat'
      unfold ofNat
      rw [value_snoc, ih, hlow, Nat.pow_succ 256 len,
        Nat.mul_comm (256 ^ len) 256, Nat.mod_mul]
      omega

/-- A number has no more than some bits exactly if it is below their
power of two. -/
theorem bitLength_le_iff {n k : Nat} : bitLength n ≤ k ↔ n < 2 ^ k := by
  unfold bitLength
  by_cases h : n = 0
  · subst h
    rw [if_pos rfl]
    exact ⟨fun _ => Nat.two_pow_pos k, fun _ => Nat.zero_le k⟩
  · rw [if_neg h, ← Nat.log2_lt h]
    omega

theorem ofBytes_eq_ofDigits (bs : List UInt8) :
    Bits.ofBytes bs = Bits.ofDigits 8 (bs.map UInt8.toNat) := by
  unfold Bits.ofDigits
  rw [List.flatMap_map]
  rfl

/-- Bytes and their bits write the same number. -/
theorem value_ofBytes (bs : List UInt8) :
    Bits.value (Bits.ofBytes bs) = value bs := by
  rw [ofBytes_eq_ofDigits]
  induction bs using List.reverseRecOn with
  | nil => rfl
  | append_singleton bs b ih =>
      have hb : b.toNat % 2 ^ 8 = b.toNat := Nat.mod_eq_of_lt b.toNat_lt
      have hbase : 2 ^ 8 = 256 := by omega
      rw [List.map_append, List.map_singleton, Bits.value_ofDigits_snoc,
        ih, hb, hbase, value_snoc]

/-- A byte is eight bits wide. -/
theorem pow_eq (len : Nat) : 256 ^ len = 2 ^ (8 * len) := by
  rw [Nat.pow_mul]

/-- The bytes in front count for more, by a power of 256 for each byte
behind. -/
theorem value_append (as bs : List UInt8) :
    value (as ++ bs) = 256 ^ bs.length * value as + value bs := by
  have happ : Bits.ofBytes (as ++ bs) = Bits.ofBytes as ++ Bits.ofBytes bs :=
    List.flatMap_append
  rw [← value_ofBytes, happ, Bits.value_append, Bits.length_ofBytes,
    value_ofBytes, value_ofBytes, pow_eq]

theorem value_lt (bs : List UInt8) : value bs < 256 ^ bs.length := by
  have h := Bits.value_lt (Bits.ofBytes bs)
  rw [Bits.length_ofBytes, value_ofBytes, ← pow_eq] at h
  exact h

/-- Bytes are determined by their bits. -/
theorem ofBytes_injective {as bs : List UInt8}
    (h : Bits.ofBytes as = Bits.ofBytes bs) : as = bs := by
  have hlen : as.length = bs.length := by
    have h8 := congrArg List.length h
    rw [Bits.length_ofBytes, Bits.length_ofBytes] at h8
    omega
  rw [ofBytes_eq_ofDigits, ofBytes_eq_ofDigits] at h
  exact Bits.ofDigits_map_injective (fun _ _ => UInt8.toNat_inj.1) hlen
    (fun a _ => a.toNat_lt) (fun b _ => b.toNat_lt) h

/-- Bytes of one length with one value are the same. -/
theorem eq_of_value_eq {as bs : List UInt8}
    (hlen : as.length = bs.length) (h : value as = value bs) :
    as = bs := by
  apply ofBytes_injective
  apply Bits.eq_of_value_eq
  · rw [Bits.length_ofBytes, Bits.length_ofBytes, hlen]
  · rw [value_ofBytes, value_ofBytes, h]

/-- The bits of a number's bytes are its bits. -/
theorem ofBytes_ofNat (len n : Nat) :
    Bits.ofBytes (ofNat len n) = Bits.ofNat (8 * len) n := by
  apply Bits.eq_of_value_eq
  · rw [Bits.length_ofBytes, length_ofNat, Bits.length_ofNat]
  · rw [value_ofBytes, value_ofNat, Bits.value_ofNat, pow_eq]

-- ===================================================== another length

@[simp] theorem value_replicate_zero (k : Nat) :
    value (List.replicate k 0) = 0 := by
  induction k with
  | zero => rfl
  | succ k ih =>
      rw [List.replicate_succ', value_snoc, ih]
      rfl

/-- A change of length keeps the number, as far as the new length can
hold it. -/
theorem value_leftPad (bs : List UInt8) (len : Nat) :
    value (leftPad bs len) = value bs % 256 ^ len := by
  unfold leftPad
  rw [value_append, value_replicate_zero, Nat.mul_zero, Nat.zero_add]
  rcases Nat.le_total bs.length len with h | h
  · -- nothing is dropped, and the number is small enough
    have hlt : value bs < 256 ^ len :=
      calc value bs < 256 ^ bs.length := value_lt bs
        _ ≤ 256 ^ len := Nat.pow_le_pow_right (by omega) h
    rw [Nat.min_eq_left h, Nat.sub_self, List.drop_zero,
      Nat.mod_eq_of_lt hlt]
  · -- what is dropped counts for multiples of the modulus
    have hlen : (bs.drop (bs.length - len)).length = len := by
      rw [List.length_drop]
      omega
    have hlt : value (bs.drop (bs.length - len)) < 256 ^ len := by
      simpa only [hlen] using value_lt (bs.drop (bs.length - len))
    have hsplit : value bs
        = 256 ^ len * value (bs.take (bs.length - len))
          + value (bs.drop (bs.length - len)) := by
      simpa only [List.take_append_drop, hlen] using
        value_append (bs.take (bs.length - len))
          (bs.drop (bs.length - len))
    rw [Nat.min_eq_right h, hsplit, Nat.mul_add_mod,
      Nat.mod_eq_of_lt hlt]

/-- Padding keeps the value as far as the length has room for it. -/
theorem leftPad_eq_ofNat (bs : List UInt8) (len : Nat) :
    leftPad bs len = ofNat len (value bs) := by
  apply eq_of_value_eq
  · rw [length_leftPad, length_ofNat]
  · rw [value_leftPad, value_ofNat]

/-- The minimal form loses nothing. -/
theorem value_minimal (n : Nat) : value (minimal n) = n := by
  have hbits : n < 2 ^ bitLength n := bitLength_le_iff.1 (Nat.le_refl _)
  have hle : bitLength n ≤ 8 * byteLength n := by
    unfold byteLength
    omega
  have hlt : n < 256 ^ byteLength n :=
    calc n < 2 ^ bitLength n := hbits
      _ ≤ 2 ^ (8 * byteLength n) := Nat.pow_le_pow_right (by omega) hle
      _ = 256 ^ byteLength n := (pow_eq _).symm
  unfold minimal
  rw [value_ofNat, Nat.mod_eq_of_lt hlt]

/-- A number that is written in full and then padded is written in this
length. -/
theorem leftPad_minimal (n len : Nat) :
    leftPad (minimal n) len = ofNat len n := by
  rw [leftPad_eq_ofNat, value_minimal]

end Bytes

-- ========================================================== positions

namespace Indices

/-- Positions in a word list take eleven bits each. -/
def Fits (is : List UInt16) : Prop := ∀ i ∈ is, i.toNat < 2048

/-- The bits of some positions, eleven a position. -/
def bits (is : List UInt16) : List Bool :=
  is.flatMap fun i => Bits.ofNat bitsPerWord i.toNat

/-- The positions that a bit string holds, `n` of them. -/
def ofBits (n : Nat) (bs : List Bool) : List UInt16 :=
  (Bits.digits bitsPerWord n bs).map UInt16.ofNat

/-- The bits of positions are those of digits of eleven bits. -/
theorem bits_eq_ofDigits (is : List UInt16) :
    bits is = Bits.ofDigits bitsPerWord (is.map UInt16.toNat) := by
  unfold Bits.ofDigits
  rw [List.flatMap_map]
  rfl

@[simp] theorem length_bits (is : List UInt16) :
    (bits is).length = bitsPerWord * is.length := by
  rw [bits_eq_ofDigits, Bits.length_ofDigits, List.length_map]

@[simp] theorem length_ofBits (n : Nat) (bs : List Bool) :
    (ofBits n bs).length = n := by
  unfold ofBits
  rw [List.length_map, Bits.length_digits]

/-- Packing one more position makes it the last digit: the shift leaves
the low bits free, so that the or adds. -/
theorem pack_snoc_eq_add {i : UInt16} (is : List UInt16)
    (hi : i.toNat < 2048) :
    pack (is ++ [i]) = pack is * 2048 + i.toNat := by
  have hlow : i.toNat < 2 ^ bitsPerWord := hi
  rw [pack_snoc, ← Nat.shiftLeft_add_eq_or_of_lt hlow, Nat.shiftLeft_eq]
  rfl

/-- The packed number is the number that the bits write. -/
theorem pack_eq_value {is : List UInt16} (h : Fits is) :
    pack is = Bits.value (bits is) := by
  rw [bits_eq_ofDigits]
  induction is using List.reverseRecOn with
  | nil => rfl
  | append_singleton is i ih =>
      have hi : i.toNat < 2 ^ bitsPerWord := h i (by simp)
      have hinit : Fits is := by
        intro j hj
        exact h j (List.mem_append_left _ hj)
      rw [pack_snoc_eq_add is hi, ih hinit, List.map_append,
        List.map_singleton, Bits.value_ofDigits_snoc,
        Nat.mod_eq_of_lt hi, Nat.mul_comm]
      rfl

/-- A packed number is no wider than its words. -/
theorem pack_lt {is : List UInt16} (h : Fits is) :
    pack is < 2 ^ (bitsPerWord * is.length) := by
  rw [pack_eq_value h, ← length_bits]
  exact Bits.value_lt _

/-- Positions are determined by their number and their bits. -/
theorem bits_injective {is js : List UInt16}
    (hlen : is.length = js.length) (his : Fits is) (hjs : Fits js)
    (h : bits is = bits js) : is = js := by
  have hlt {ks : List UInt16} (hks : Fits ks) :
      ∀ k ∈ ks, k.toNat < 2 ^ bitsPerWord := hks
  rw [bits_eq_ofDigits, bits_eq_ofDigits] at h
  exact Bits.ofDigits_map_injective (fun _ _ => UInt16.toNat_inj.1) hlen
    (hlt his) (hlt hjs) h

/-- Sixteen bits hold a digit of eleven. -/
theorem map_toNat_ofBits (n : Nat) (bs : List Bool) :
    (ofBits n bs).map UInt16.toNat = Bits.digits bitsPerWord n bs := by
  have hkeep : ∀ d ∈ Bits.digits bitsPerWord n bs,
      (UInt16.toNat ∘ UInt16.ofNat) d = id d := by
    intro d hd
    have hlt : d < 2 ^ bitsPerWord := Bits.lt_of_mem_digits hd
    exact UInt16.toNat_ofNat_of_lt' (Nat.lt_trans hlt (by decide))
  unfold ofBits
  rw [List.map_map, List.map_congr_left hkeep, List.map_id]

/-- Eleven bits make a position below 2048. -/
theorem fits_ofBits (n : Nat) (bs : List Bool) : Fits (ofBits n bs) := by
  intro i hi
  have hd : i.toNat ∈ Bits.digits bitsPerWord n bs := by
    rw [← map_toNat_ofBits]
    exact List.mem_map_of_mem hi
  exact Bits.lt_of_mem_digits hd

/-- A bit string of whole positions is made up of them. -/
theorem bits_ofBits {n : Nat} {bs : List Bool}
    (h : bs.length = bitsPerWord * n) : bits (ofBits n bs) = bs := by
  rw [bits_eq_ofDigits, map_toNat_ofBits, Bits.ofDigits_digits h]

/-- Positions are read back from their bits. -/
theorem ofBits_bits {is : List UInt16} (h : Fits is) :
    ofBits is.length (bits is) = is := by
  apply bits_injective (length_ofBits _ _) (fits_ofBits _ _) h
  rw [bits_ofBits (length_bits is)]

end Indices

end Mnemonic.Numeral
