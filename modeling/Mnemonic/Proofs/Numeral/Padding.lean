/-
What a change of length does to bytes, as work on a buffer and as
arithmetic.

On a buffer, zeros are laid out and the last bytes copied over their
end. That takes two differences of lengths, two ranges that begin there
and a copy between ranges of one length, so it can go out of range in
several ways. `copyLast` is this work with every step checked, for any
number of copied bytes, and `copyLast_eq` says when the checks hold:
exactly as long as neither length is exceeded. A change of length copies
as many bytes as that allows. It therefore always goes through, and what
is in the buffer then is `leftPad` (`leftPadInBuffer_eq`).

As arithmetic, bytes dropped in front count for multiples of
`256 ^ len`, which `value_leftPad` says of any bytes. More can be said
of minimal forms. With no zero to leave out in front, a form has the
length of its number (`IsMinimal.length_eq`), so that each number has
one (`isMinimal_iff`) and the form of a number below `256 ^ len` has
room in `len` bytes. The one byte of zero is an exception if no bytes
are asked for: it is dropped, and zero still written.
-/
import Mnemonic.Proofs.Numeral.Regrouping

namespace Mnemonic.Numeral.Bytes

variable {bs : List UInt8} {n len : Nat}

-- ========================================================= in a buffer

/-- How work on a buffer goes out of range. -/
inductive RangeFault where
  /-- More is taken off a length than it has. -/
  | negative
  /-- A range begins behind the end. -/
  | beyond
  /-- A copy is longer or shorter than its place. -/
  | unequal
deriving DecidableEq, Repr

/-- A length with another taken off. -/
def checkedSub (m k : Nat) : Except RangeFault Nat :=
  if k ≤ m then .ok (m - k) else .error .negative

/-- The bytes from a place on. The place just behind the last byte is in
range and has none. -/
def rangeFrom (bs : List UInt8) (i : Nat) :
    Except RangeFault (List UInt8) :=
  if i ≤ bs.length then .ok (bs.drop i) else .error .beyond

/-- A buffer of `len` zeros with the last `k` of some bytes copied over
its end. -/
def copyLast (k : Nat) (bs : List UInt8) (len : Nat) :
    Except RangeFault (List UInt8) := do
  let buffer := List.replicate len 0
  let start ← checkedSub len k
  let place ← rangeFrom buffer start
  let first ← checkedSub bs.length k
  let copied ← rangeFrom bs first
  if copied.length = place.length then .ok (buffer.take start ++ copied)
  else .error .unequal

/-- Some bytes brought to the length `len` by work on a buffer: as many
are copied as there are and as there is room for. -/
def leftPadInBuffer (bs : List UInt8) (len : Nat) :
    Except RangeFault (List UInt8) :=
  copyLast (min bs.length len) bs len

theorem checkedSub_of_le {m k : Nat} (h : k ≤ m) :
    checkedSub m k = .ok (m - k) :=
  if_pos h

theorem checkedSub_of_lt {m k : Nat} (h : m < k) :
    checkedSub m k = .error .negative :=
  if_neg (by omega)

theorem rangeFrom_of_le {i : Nat} (h : i ≤ bs.length) :
    rangeFrom bs i = .ok (bs.drop i) :=
  if_pos h

/-- Copying stays in range exactly if neither length is exceeded. Only
the differences can fail: once there are both, they are places of their
ranges and leave the same number of bytes. -/
theorem copyLast_eq (k : Nat) (bs : List UInt8) (len : Nat) :
    copyLast k bs len
      = if k ≤ min bs.length len then
          .ok (List.replicate (len - k) 0 ++ bs.drop (bs.length - k))
        else .error .negative := by
  unfold copyLast
  by_cases hroom : k ≤ len
  · have hplace : len - k ≤ (List.replicate len (0 : UInt8)).length := by
      simp
    by_cases hbytes : k ≤ bs.length
    · have hfirst : bs.length - k ≤ bs.length := Nat.sub_le _ _
      have hequal : (bs.drop (bs.length - k)).length
          = ((List.replicate len (0 : UInt8)).drop (len - k)).length := by
        simp only [List.length_drop, List.length_replicate]
        omega
      have hstart : min (len - k) len = len - k := by omega
      simp only [checkedSub_of_le hroom, checkedSub_of_le hbytes,
        rangeFrom_of_le hplace, rangeFrom_of_le hfirst, bind, Except.bind]
      rw [if_pos hequal, if_pos (by omega), List.take_replicate, hstart]
    · -- the buffer has room, but there are not so many bytes to copy
      simp only [checkedSub_of_le hroom, checkedSub_of_lt (Nat.not_le.1 hbytes),
        rangeFrom_of_le hplace, bind, Except.bind]
      rw [if_neg (by omega)]
  · -- the first subtraction fails already
    simp only [checkedSub_of_lt (Nat.not_le.1 hroom), bind, Except.bind]
    rw [if_neg (by omega)]

example : copyLast 3 [7, 8] 4 = .error .negative := rfl

/-- The change of length never goes out of range. -/
theorem leftPadInBuffer_eq (bs : List UInt8) (len : Nat) :
    leftPadInBuffer bs len = .ok (leftPad bs len) := by
  unfold leftPadInBuffer
  rw [copyLast_eq, if_pos (Nat.le_refl _)]
  rfl

-- ======================================================= minimal forms

/-- Bytes are the minimal form of a number: they write it, and a zero in
front stands alone. -/
structure IsMinimal (bs : List UInt8) (n : Nat) : Prop where
  value : value bs = n
  nonempty : bs ≠ []
  front : ∀ rest, bs = 0 :: rest → rest = []

@[simp] theorem length_minimal (n : Nat) :
    (minimal n).length = byteLength n :=
  length_ofNat _ _

theorem byteLength_pos (n : Nat) : 0 < byteLength n := by
  unfold byteLength
  omega

/-- A number takes no more than some bytes exactly if it is below their
power, for at least one byte. -/
theorem byteLength_le_iff {k : Nat} (hk : 0 < k) :
    byteLength n ≤ k ↔ n < 256 ^ k := by
  rw [pow_eq, ← bitLength_le_iff]
  unfold byteLength
  omega

/-- A byte in front counts by the bytes behind it. -/
theorem value_cons (b : UInt8) (bs : List UInt8) :
    value (b :: bs) = 256 ^ bs.length * b.toNat + value bs := by
  have hone : value [b] = b.toNat := by
    have h := value_snoc [] b
    rwa [List.nil_append, value_nil, Nat.mul_zero, Nat.zero_add] at h
  have happ := value_append [b] bs
  rwa [hone] at happ

/-- Only a zero in front adds nothing to what the bytes behind it can
write. -/
theorem value_cons_lt_iff (b : UInt8) (bs : List UInt8) :
    value (b :: bs) < 256 ^ bs.length ↔ b = 0 := by
  rw [value_cons]
  by_cases hb : b = 0
  · refine iff_of_true ?_ hb
    rw [hb, UInt8.toNat_zero, Nat.mul_zero, Nat.zero_add]
    exact value_lt bs
  · refine iff_of_false ?_ hb
    have hpos : 0 < b.toNat := by
      rw [Nat.pos_iff_ne_zero, ← UInt8.toNat_zero, Ne, UInt8.toNat_inj]
      exact hb
    have hle : 256 ^ bs.length ≤ 256 ^ bs.length * b.toNat :=
      Nat.le_mul_of_pos_right _ hpos
    omega

/-- A number takes as many bytes as write it unless there are zeros to
leave out. -/
theorem byteLength_value_cons_iff (b : UInt8) (bs : List UInt8) :
    byteLength (value (b :: bs)) = bs.length + 1 ↔ (b = 0 → bs = []) := by
  have hle : byteLength (value (b :: bs)) ≤ bs.length + 1 :=
    (byteLength_le_iff (Nat.succ_pos _)).2 (value_lt (b :: bs))
  have hpos := byteLength_pos (value (b :: bs))
  cases bs with
  | nil =>
      rw [List.length_nil] at hle ⊢
      exact ⟨fun _ _ => rfl, fun _ => by omega⟩
  | cons c bs =>
      have hless := byteLength_le_iff (n := value (b :: c :: bs))
        (Nat.succ_pos bs.length)
      have hzero := value_cons_lt_iff b (c :: bs)
      rw [List.length_cons] at hle hzero ⊢
      rw [← hzero, ← hless]
      simp only [reduceCtorEq, imp_false]
      omega

/-- A minimal form is as long as the number is. -/
theorem IsMinimal.length_eq (h : IsMinimal bs n) :
    bs.length = byteLength n := by
  cases bs with
  | nil => exact absurd rfl h.nonempty
  | cons b bs =>
      rw [← h.value, List.length_cons]
      symm
      rw [byteLength_value_cons_iff]
      rintro rfl
      exact h.front bs rfl

/-- Every number has one minimal form. -/
theorem isMinimal_iff : IsMinimal bs n ↔ bs = minimal n := by
  refine ⟨fun h => ?_, fun h => ?_⟩
  · apply eq_of_value_eq
    · rw [h.length_eq, length_minimal]
    · rw [h.value, value_minimal]
  · subst h
    refine ⟨value_minimal n, ?_, fun rest hrest => ?_⟩
    · rw [← List.length_pos_iff, length_minimal]
      exact byteLength_pos n
    · -- a zero in front would leave too few bytes for the number
      have hvalue : value (0 :: rest) = n := by
        rw [← hrest, value_minimal]
      have hlen : byteLength n = rest.length + 1 := by
        rw [← length_minimal, hrest, List.length_cons]
      rw [← hvalue, byteLength_value_cons_iff] at hlen
      exact hlen rfl

/-- A minimal form has room where its number has, unless there is no
room at all. -/
theorem IsMinimal.length_le (h : IsMinimal bs n) (hlen : 0 < len)
    (hn : n < 256 ^ len) : bs.length ≤ len := by
  rw [h.length_eq]
  exact (byteLength_le_iff hlen).2 hn

-- ===================================================== another length

/-- Bytes that have room stand at the end. -/
theorem leftPad_of_length_le (h : bs.length ≤ len) :
    leftPad bs len = List.replicate (len - bs.length) 0 ++ bs := by
  simp [leftPad, h]

/-- A change of length never goes out of range, whatever the lengths,
and gives as many bytes as are asked for. They write the number modulo
`256 ^ len`. So if the bytes are the minimal form of a number below
that, the number is kept, and unless no bytes are asked for the whole
form stands behind zeros; and bytes that have the length stay as they
are. -/
theorem leftPad_keeps_low_bytes (bs : List UInt8) (len : Nat) :
    leftPadInBuffer bs len = .ok (leftPad bs len)
      ∧ (leftPad bs len).length = len
      ∧ value (leftPad bs len) = value bs % 256 ^ len
      ∧ (∀ n, IsMinimal bs n → n < 256 ^ len →
          value (leftPad bs len) = n
            ∧ (0 < len →
                leftPad bs len
                  = List.replicate (len - bs.length) 0 ++ bs))
      ∧ (∀ n, IsMinimal bs n ↔ bs = minimal n)
      ∧ (bs.length = len → leftPad bs len = bs) := by
  refine ⟨leftPadInBuffer_eq bs len, length_leftPad bs len,
    value_leftPad bs len, fun n hmin hn => ⟨?_, fun hlen => ?_⟩,
    fun n => isMinimal_iff, fun h => ?_⟩
  · rw [value_leftPad, hmin.value, Nat.mod_eq_of_lt hn]
  · exact leftPad_of_length_le (hmin.length_le hlen hn)
  · subst h
    exact leftPad_self bs

/-- Too few bytes, too many, just enough with a zero in front, and the
byte of zero with no room for it. -/
theorem leftPad_keeps_low_bytes_edges :
    leftPadInBuffer [1, 0] 4 = .ok [0, 0, 1, 0]
      ∧ value (leftPad [1, 0] 4) = 256
      ∧ leftPadInBuffer [7, 8, 9] 2 = .ok [8, 9]
      ∧ value (leftPad [7, 8, 9] 2) = value [7, 8, 9] % 65536
      ∧ leftPad [0, 5] 2 = [0, 5]
      ∧ leftPadInBuffer [0] 0 = .ok []
      ∧ value (leftPad [0] 0) = 0 := by
  obtain ⟨hfew, -, -, hkept, -, -⟩ := leftPad_keeps_low_bytes [1, 0] 4
  obtain ⟨hmany, -, hvalue, -, -, -⟩ :=
    leftPad_keeps_low_bytes [7, 8, 9] 2
  obtain ⟨-, -, -, -, -, hsame⟩ := leftPad_keeps_low_bytes [0, 5] 2
  obtain ⟨hzero, -, -, hnone, -, -⟩ := leftPad_keeps_low_bytes [0] 0
  have hmin : IsMinimal [1, 0] 256 := ⟨rfl, by simp, by simp⟩
  have hminZero : IsMinimal [0] 0 := ⟨rfl, by simp, by simp⟩
  exact ⟨hfew, (hkept 256 hmin (by omega)).1, hmany, hvalue, hsame rfl,
    hzero, (hnone 0 hminZero (by omega)).1⟩

end Mnemonic.Numeral.Bytes
