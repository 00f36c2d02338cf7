/-
Packed positions as a numeral in base 2048, for any number of positions.

Packing is a fold from the left, so what it does to one more position at
the end is one step (`pack_snoc_eq_add`). Carried through a whole
sequence, the step says how two sequences pack together
(`pack_append`), and from this equation everything else follows: a
position in front counts for 2048 to the number of positions behind it
(`pack_cons`), so the packed number is the sum of the positions by their
places (`pack_eq_sum`), and the first position in which two sequences of
one length differ decides which number is greater
(`pack_lt_pack_iff`).

That no number is left out, and none reached twice, is seen on the bits:
a number below the width of `k` positions is a bit string of that width,
which is the bits of one sequence of positions (`pack_ofNat`,
`pack_injective`).
-/
import Mathlib.Algebra.BigOperators.Fin
import Mnemonic.Proofs.Numeral.Regrouping

namespace Mnemonic.Numeral.Indices

variable {is js : List UInt16} {i j : UInt16}

-- =========================================================== the digits

theorem fits_nil : Fits [] := by
  intro i hi
  cases hi

theorem fits_cons : Fits (i :: is) ↔ i.toNat < 2048 ∧ Fits is := by
  unfold Fits
  rw [List.forall_mem_cons]

theorem fits_append : Fits (is ++ js) ↔ Fits is ∧ Fits js := by
  unfold Fits
  rw [List.forall_mem_append]

/-- The base, as often as there are positions, is the width of all their
bits. -/
theorem base_pow (k : Nat) : 2048 ^ k = 2 ^ (bitsPerWord * k) := by
  rw [Nat.pow_mul]
  rfl

/-- The packed number is below the power of the base with as many
places. -/
theorem pack_lt_base_pow (h : Fits is) : pack is < 2048 ^ is.length := by
  rw [base_pow]
  exact pack_lt h

/-- The shift clears all the bits that one more position can set. -/
theorem shift_and_eq_zero (is : List UInt16) (hi : i.toNat < 2048) :
    (pack is <<< bitsPerWord) &&& i.toNat = 0 := by
  have hlow : i.toNat < 2 ^ bitsPerWord := hi
  apply Nat.eq_of_testBit_eq
  intro k
  rw [Nat.testBit_and, Nat.testBit_shiftLeft, Nat.zero_testBit]
  by_cases hk : bitsPerWord ≤ k
  · have hbit : i.toNat.testBit k = false :=
      Nat.testBit_lt_two_pow
        (Nat.lt_of_lt_of_le hlow (Nat.pow_le_pow_right (by omega) hk))
    rw [hbit, Bool.and_false]
  · rw [decide_eq_false hk, Bool.false_and, Bool.false_and]

-- ============================================================ the value

/-- Sequences one behind the other pack to the first number, moved up by
the places of the second, and the second. -/
theorem pack_append (is : List UInt16) (hjs : Fits js) :
    pack (is ++ js) = pack is * 2048 ^ js.length + pack js := by
  induction js using List.reverseRecOn with
  | nil => rw [List.append_nil, List.length_nil, Nat.pow_zero, Nat.mul_one,
      pack_nil, Nat.add_zero]
  | append_singleton js j ih =>
      obtain ⟨hinit, hlast⟩ := fits_append.1 hjs
      have hj : j.toNat < 2048 := (fits_cons.1 hlast).1
      rw [← List.append_assoc, pack_snoc_eq_add _ hj, pack_snoc_eq_add _ hj,
        ih hinit, List.length_append, List.length_singleton, Nat.pow_succ,
        Nat.add_mul, Nat.mul_assoc, Nat.add_assoc]

theorem pack_singleton (hi : i.toNat < 2048) : pack [i] = i.toNat := by
  have h := pack_snoc_eq_add [] hi
  rwa [List.nil_append, pack_nil, Nat.zero_mul, Nat.zero_add] at h

/-- A position in front counts by the places behind it. -/
theorem pack_cons (h : Fits (i :: is)) :
    pack (i :: is) = i.toNat * 2048 ^ is.length + pack is := by
  obtain ⟨hi, his⟩ := fits_cons.1 h
  have happ := pack_append [i] his
  rwa [pack_singleton hi] at happ

theorem pack_zero_cons (h : Fits is) : pack (0 :: is) = pack is := by
  have hzero : Fits (0 :: is) := fits_cons.2 ⟨by decide, h⟩
  have hnone : (0 : UInt16).toNat = 0 := rfl
  rw [pack_cons hzero, hnone, Nat.zero_mul, Nat.zero_add]

/-- The packed number is the sum of the positions, each by its place. -/
theorem pack_eq_sum (h : Fits is) :
    pack is
      = ∑ k : Fin is.length,
          (is.get k).toNat * 2048 ^ (is.length - 1 - k.val) := by
  induction is with
  | nil => rfl
  | cons i is ih =>
      have hplace (k : Fin is.length) :
          (i :: is).length - 1 - k.succ.val = is.length - 1 - k.val := by
        rw [List.length_cons, Fin.val_succ]
        omega
      rw [pack_cons h, ih (fits_cons.1 h).2]
      show _ = ∑ k : Fin (is.length + 1), _
      rw [Fin.sum_univ_succ]
      simp only [hplace]
      rfl

-- ============================================================ the order

/-- One sequence of positions comes before another in lexicographic
order. -/
def Earlier (is js : List UInt16) : Prop :=
  List.Lex (fun i j => i.toNat < j.toNat) is js

/-- The first position decides the order, unless it is the same. -/
theorem earlier_cons_iff :
    Earlier (i :: is) (j :: js)
      ↔ i.toNat < j.toNat ∨ i.toNat = j.toNat ∧ Earlier is js := by
  unfold Earlier
  rw [List.cons_lex_cons_iff, UInt16.toNat_inj]

/-- Of two numbers with a high and a low part, the high part decides
unless it is the same. -/
theorem mul_add_lt_mul_add_iff {a b x y n : Nat} (hx : x < n) (hy : y < n) :
    a * n + x < b * n + y ↔ a < b ∨ a = b ∧ x < y := by
  rcases Nat.lt_trichotomy a b with hab | hab | hab
  · have hstep : a * n + n ≤ b * n := by
      rw [← Nat.succ_mul]
      exact Nat.mul_le_mul_right n hab
    omega
  · subst hab
    omega
  · have hstep : b * n + n ≤ a * n := by
      rw [← Nat.succ_mul]
      exact Nat.mul_le_mul_right n hab
    omega

/-- Numbers of sequences of one length are ordered as the sequences
are. -/
theorem pack_lt_pack_iff (hlen : is.length = js.length) (his : Fits is)
    (hjs : Fits js) : pack is < pack js ↔ Earlier is js := by
  induction is generalizing js with
  | nil =>
      obtain rfl := List.eq_nil_of_length_eq_zero hlen.symm
      exact ⟨fun h => absurd h (Nat.lt_irrefl _), fun h => nomatch h⟩
  | cons i is ih =>
      cases js with
      | nil => cases hlen
      | cons j js =>
          have htail : is.length = js.length := Nat.succ.inj hlen
          have hi := (fits_cons.1 his).2
          have hj := (fits_cons.1 hjs).2
          have hlt := pack_lt_base_pow hi
          rw [htail] at hlt
          rw [earlier_cons_iff, ← ih htail hi hj, pack_cons his,
            pack_cons hjs, htail,
            mul_add_lt_mul_add_iff hlt (pack_lt_base_pow hj)]

-- ============================================== every number, once only

/-- Sequences of one length that pack to one number are the same. -/
theorem pack_injective (hlen : is.length = js.length) (his : Fits is)
    (hjs : Fits js) (h : pack is = pack js) : is = js := by
  rw [pack_eq_value his, pack_eq_value hjs] at h
  apply bits_injective hlen his hjs
  apply Bits.eq_of_value_eq _ h
  rw [length_bits, length_bits, hlen]

/-- The positions that the bits of a number make pack to it. -/
theorem pack_ofNat {k v : Nat} (h : v < 2 ^ (bitsPerWord * k)) :
    pack (ofBits k (Bits.ofNat (bitsPerWord * k) v)) = v := by
  rw [pack_eq_value (fits_ofBits _ _), bits_ofBits (Bits.length_ofNat _ _),
    Bits.value_ofNat, Nat.mod_eq_of_lt h]

/-- Packing is a positional numeral system in base 2048. The packed
number is the sum of the positions by their places and below the width
of their bits; packing follows the order of a sequence, forgets zeros in
front, and over the sequences of one length reaches every number of
their width exactly once, in lexicographic order. The bits of a further
position are always free. -/
theorem pack_positional :
    (∀ is, Fits is →
        pack is = ∑ k : Fin is.length,
            (is.get k).toNat * 2048 ^ (is.length - 1 - k.val)
          ∧ pack is < 2 ^ (11 * is.length))
      ∧ (∀ is js, Fits js →
          pack (is ++ js) = pack is * 2 ^ (11 * js.length) + pack js)
      ∧ (∀ is, Fits is → pack (0 :: is) = pack is)
      ∧ (∀ is js, is.length = js.length → Fits is → Fits js →
          (pack is = pack js → is = js)
            ∧ (pack is < pack js ↔ Earlier is js))
      ∧ (∀ k v, v < 2 ^ (11 * k) →
          ∃! is, is.length = k ∧ Fits is ∧ pack is = v)
      ∧ ∀ is (i : UInt16), i.toNat < 2048 →
          (pack is <<< 11) &&& i.toNat = 0 := by
  refine ⟨fun is his => ⟨pack_eq_sum his, pack_lt his⟩,
    fun is js hjs => ?_, fun is => pack_zero_cons,
    fun is js hlen his hjs => ⟨pack_injective hlen his hjs,
      pack_lt_pack_iff hlen his hjs⟩,
    fun k v hv => ?_, fun is i => shift_and_eq_zero is⟩
  · rw [pack_append is hjs, base_pow]
    rfl
  · refine ⟨ofBits k (Bits.ofNat (bitsPerWord * k) v),
      ⟨length_ofBits _ _, fits_ofBits _ _, pack_ofNat hv⟩, ?_⟩
    intro js hjs
    obtain ⟨hlen, hfits, hpack⟩ := hjs
    apply pack_injective _ hfits (fits_ofBits _ _)
    · rw [hpack, pack_ofNat hv]
    · rw [hlen, length_ofBits]

/-- A position that fills its place, zeros in front, and the greatest
number of three positions. -/
theorem pack_positional_carry :
    pack [1, 2047] = 1 * 2048 + 2047
      ∧ pack ([1, 2047] ++ [0, 3]) = 4095 * 2 ^ 22 + 3
      ∧ pack [0, 0, 3] = 3
      ∧ pack [1, 2047] < pack [2, 0]
      ∧ (∃! is, is.length = 3 ∧ Fits is ∧ pack is = 2 ^ 33 - 1)
      ∧ (pack [1, 2047] <<< 11) &&& 2047 = 0 := by
  obtain ⟨hsum, happ, hzero, horder, hunique, hfree⟩ := pack_positional
  have hpair {i j : UInt16} (hi : i.toNat < 2048) (hj : j.toNat < 2048) :
      Fits [i, j] :=
    fits_cons.2 ⟨hi, fits_cons.2 ⟨hj, fits_nil⟩⟩
  have hcarry : Fits [1, 2047] := hpair (by decide) (by decide)
  have hpadded : Fits [0, 3] := hpair (by decide) (by decide)
  have hthree : Fits [3] := (fits_cons.1 hpadded).2
  have hnext : Fits [2, 0] := hpair (by decide) (by decide)
  have hvalue : pack [1, 2047] = 1 * 2048 + 2047 := by
    rw [(hsum _ hcarry).1]
    rfl
  have hlast : pack [3] = 3 := by
    rw [(hsum _ hthree).1]
    rfl
  refine ⟨hvalue, ?_, ?_, ?_, hunique 3 _ (by omega),
    hfree _ 2047 (by decide)⟩
  · rw [happ _ _ hpadded, hvalue, hzero _ hthree, hlast]
    rfl
  · rw [hzero _ hpadded, hzero _ hthree, hlast]
  · exact (horder [1, 2047] [2, 0] rfl hcarry hnext).2.2 (.rel (by decide))

end Mnemonic.Numeral.Indices
