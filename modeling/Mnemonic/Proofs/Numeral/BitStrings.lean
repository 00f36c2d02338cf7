/-
Bit strings as the common form of numbers, bytes and word positions.

A bit string of length `w` and a number below `2 ^ w` are the same
thing: `value` and `ofNat w` are inverse to each other (`value_ofNat`,
`ofNat_value`), so two bit strings of one length are equal as soon as
their values are (`eq_of_value_eq`). Nearly every equation between bit
strings below is proved that way, by comparing lengths and then values.

The second half writes a sequence of digits as one bit string, `w` bits
a digit, and cuts it up again. Bytes are the case `w = 8` and positions
in a word list the case `w = 11`. Cutting and writing are inverse to
each other as well (`digits_ofDigits`, `ofDigits_digits`), which is what
makes the two readings of one bit string, as bytes and as positions,
determine each other although their boundaries fall at different places.
-/
import Mathlib.Algebra.Group.Nat.Defs
import Mathlib.Data.List.Induction
import Mnemonic.Numeral.Bits

namespace Mnemonic.Numeral.Bits

-- ============================================================= values

/-- A number below `2 ^ w` reads back from its `w` bits; a larger one
loses its high bits. -/
theorem value_ofNat (w n : Nat) : value (ofNat w n) = n % 2 ^ w := by
  induction w generalizing n with
  | zero =>
      rw [Nat.pow_zero, Nat.mod_one]
      rfl
  | succ w ih =>
      have hb : (n % 2 == 1).toNat = n % 2 := by
        rcases Nat.mod_two_eq_zero_or_one n with h | h
        · rw [h]
          rfl
        · rw [h]
          rfl
      unfold ofNat
      rw [value_snoc, ih, hb, Nat.pow_succ, Nat.mul_comm (2 ^ w) 2,
        Nat.mod_mul]
      omega

/-- The bits in front count for more, by as many powers of two as bits
follow. -/
theorem value_append (a b : List Bool) :
    value (a ++ b) = 2 ^ b.length * value a + value b := by
  induction b using List.reverseRecOn with
  | nil => simp
  | append_singleton b x ih =>
      rw [← List.append_assoc, value_snoc, value_snoc, ih,
        List.length_append, List.length_singleton, Nat.pow_succ,
        Nat.mul_comm (2 ^ b.length) 2, Nat.mul_assoc]
      omega

/-- A bit string is that of its value, in its own width. -/
theorem ofNat_value (bits : List Bool) :
    ofNat bits.length (value bits) = bits := by
  induction bits using List.reverseRecOn with
  | nil => rfl
  | append_singleton bits b ih =>
      have hbit : b.toNat < 2 := Bool.toNat_lt b
      have hhigh : (2 * value bits + b.toNat) / 2 = value bits := by omega
      have hlow : ((2 * value bits + b.toNat) % 2 == 1) = b := by
        cases b with
        | false => simp
        | true => simp
      rw [List.length_append, List.length_singleton, value_snoc]
      unfold ofNat
      rw [hhigh, hlow, ih]

/-- A value is below the power of two that its bits can write. -/
theorem value_lt (bits : List Bool) : value bits < 2 ^ bits.length := by
  have h := value_ofNat bits.length (value bits)
  rw [ofNat_value] at h
  rw [h]
  apply Nat.mod_lt
  exact Nat.two_pow_pos _

/-- Bit strings of one length with one value are the same. -/
theorem eq_of_value_eq {a b : List Bool} (hlen : a.length = b.length)
    (h : value a = value b) : a = b := by
  rw [← ofNat_value a, ← ofNat_value b, hlen, h]

theorem ofNat_mod (w n : Nat) : ofNat w (n % 2 ^ w) = ofNat w n := by
  apply eq_of_value_eq
  · rw [length_ofNat, length_ofNat]
  · rw [value_ofNat, value_ofNat, Nat.mod_mod]

/-- The bits of a number part into those of its high half and those of
its low half. -/
theorem ofNat_add (w v n : Nat) :
    ofNat (w + v) n = ofNat w (n / 2 ^ v) ++ ofNat v n := by
  apply eq_of_value_eq
  · rw [List.length_append, length_ofNat, length_ofNat, length_ofNat]
  · rw [value_append, length_ofNat, value_ofNat, value_ofNat,
      value_ofNat, Nat.add_comm w v, Nat.pow_add, Nat.mod_mul]
    omega

/-- The first bits of a number are those of its high half. -/
theorem take_ofNat {w k : Nat} (h : k ≤ w) (n : Nat) :
    (ofNat w n).take k = ofNat k (n / 2 ^ (w - k)) := by
  obtain ⟨v, rfl⟩ := Nat.exists_eq_add_of_le h
  rw [Nat.add_sub_cancel_left, ofNat_add,
    List.take_left' (length_ofNat k _)]

-- ============================================================= digits

/-- The bits of some digits, `w` bits a digit. -/
def ofDigits (w : Nat) (ds : List Nat) : List Bool := ds.flatMap (ofNat w)

/-- The first `m` digits of a bit string, `w` bits a digit. -/
def digits (w m : Nat) (bits : List Bool) : List Nat :=
  (groups w m bits).map value

@[simp] theorem ofDigits_nil (w : Nat) : ofDigits w [] = [] := rfl

@[simp] theorem ofDigits_cons (w d : Nat) (ds : List Nat) :
    ofDigits w (d :: ds) = ofNat w d ++ ofDigits w ds := rfl

@[simp] theorem ofDigits_append (w : Nat) (ds es : List Nat) :
    ofDigits w (ds ++ es) = ofDigits w ds ++ ofDigits w es :=
  List.flatMap_append

@[simp] theorem length_ofDigits (w : Nat) (ds : List Nat) :
    (ofDigits w ds).length = w * ds.length := by
  induction ds with
  | nil => rfl
  | cons d ds ih =>
      rw [ofDigits_cons, List.length_append, length_ofNat, ih,
        List.length_cons, Nat.mul_succ, Nat.add_comm]

@[simp] theorem length_digits (w m : Nat) (bits : List Bool) :
    (digits w m bits).length = m := by
  unfold digits
  rw [List.length_map, length_groups]

/-- One more digit moves the value up by its width and fills in the low
bits. -/
theorem value_ofDigits_snoc (w d : Nat) (ds : List Nat) :
    value (ofDigits w (ds ++ [d]))
      = 2 ^ w * value (ofDigits w ds) + d % 2 ^ w := by
  rw [ofDigits_append, value_append, ofDigits_cons, ofDigits_nil,
    List.append_nil, length_ofNat, value_ofNat]

/-- The first digit is read off the first bits, the others off the
rest. -/
theorem digits_succ (w m : Nat) (bits : List Bool) :
    digits w (m + 1) bits
      = value (bits.take w) :: digits w m (bits.drop w) := rfl

theorem lt_of_mem_digits {w m d : Nat} {bits : List Bool}
    (h : d ∈ digits w m bits) : d < 2 ^ w := by
  induction m generalizing bits with
  | zero => cases h
  | succ m ih =>
      rw [digits_succ, List.mem_cons] at h
      rcases h with rfl | h
      · calc value (bits.take w) < 2 ^ (bits.take w).length := value_lt _
          _ ≤ 2 ^ w :=
            Nat.pow_le_pow_right (by omega) (List.length_take_le _ _)
      · exact ih h

/-- Digits that fit their width can be read off their bits. -/
theorem digits_ofDigits {w : Nat} {ds : List Nat}
    (h : ∀ d ∈ ds, d < 2 ^ w) : digits w ds.length (ofDigits w ds) = ds := by
  induction ds with
  | nil => rfl
  | cons d ds ih =>
      have hd : d % 2 ^ w = d := Nat.mod_eq_of_lt (h d List.mem_cons_self)
      have hds : ∀ x ∈ ds, x < 2 ^ w := by
        intro x hx
        exact h x (List.mem_cons_of_mem _ hx)
      rw [List.length_cons, digits_succ, ofDigits_cons,
        List.take_left' (length_ofNat w d),
        List.drop_left' (length_ofNat w d), value_ofNat, hd, ih hds]

/-- A bit string of whole digits is made up of them. -/
theorem ofDigits_digits {w m : Nat} {bits : List Bool}
    (h : bits.length = w * m) : ofDigits w (digits w m bits) = bits := by
  induction m generalizing bits with
  | zero =>
      have hnil : bits = [] := by
        apply List.eq_nil_of_length_eq_zero
        omega
      subst hnil
      rfl
  | succ m ih =>
      rw [Nat.mul_succ] at h
      have htake : (bits.take w).length = w := by
        rw [List.length_take]
        omega
      have hdrop : (bits.drop w).length = w * m := by
        rw [List.length_drop]
        omega
      have hfirst : ofNat w (value (bits.take w)) = bits.take w := by
        simpa only [htake] using ofNat_value (bits.take w)
      rw [digits_succ, ofDigits_cons, hfirst, ih hdrop,
        List.take_append_drop]

/-- What is written by digits that fit their width and tell the elements
apart is determined by the bits. -/
theorem ofDigits_map_injective {α : Type} {f : α → Nat} {w : Nat}
    (hf : ∀ a b, f a = f b → a = b) {as bs : List α}
    (hlen : as.length = bs.length) (has : ∀ a ∈ as, f a < 2 ^ w)
    (hbs : ∀ b ∈ bs, f b < 2 ^ w)
    (h : ofDigits w (as.map f) = ofDigits w (bs.map f)) : as = bs := by
  have hread {cs : List α} (hcs : ∀ c ∈ cs, f c < 2 ^ w) :
      digits w cs.length (ofDigits w (cs.map f)) = cs.map f := by
    have hdigits : ∀ d ∈ cs.map f, d < 2 ^ w := by
      intro d hd
      obtain ⟨c, hc, rfl⟩ := List.mem_map.1 hd
      exact hcs c hc
    simpa only [List.length_map] using digits_ofDigits hdigits
  have hmap : as.map f = bs.map f := by
    rw [← hread has, ← hread hbs, hlen, h]
  exact (List.map_inj_right hf).1 hmap

end Mnemonic.Numeral.Bits
