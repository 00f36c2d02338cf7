/-
Bytes as hexadecimal text: two lower-case digits a byte, the high half
first. Reading accepts exactly what writing produces, so each text has
at most one sequence of bytes.
-/
namespace Mnemonic.Text.Hex

/-- The digit of a value below sixteen. -/
def digit (n : Nat) : Char :=
  if n < 10 then Char.ofNat ('0'.toNat + n) else Char.ofNat ('a'.toNat + (n - 10))

/-- The value of a lower-case digit. -/
def value? (c : Char) : Option Nat :=
  if '0' ≤ c ∧ c ≤ '9' then some (c.toNat - '0'.toNat)
  else if 'a' ≤ c ∧ c ≤ 'f' then some (c.toNat - 'a'.toNat + 10)
  else none

/-- The digits of some bytes. -/
def encode : List UInt8 → List Char
  | [] => []
  | b :: bs => digit (b.toNat / 16) :: digit (b.toNat % 16) :: encode bs

/-- The bytes whose digits a text is, if it is that. -/
def decode? : List Char → Option (List UInt8)
  | [] => some []
  | [_] => none
  | h :: l :: cs => do
      let hi ← value? h
      let lo ← value? l
      let bs ← decode? cs
      return UInt8.ofNat (16 * hi + lo) :: bs

def text (bs : List UInt8) : String := String.ofList (encode bs)

def bytes? (s : String) : Option (List UInt8) := decode? s.toList

theorem value?_digit : ∀ n < 16, value? (digit n) = some n := by decide

theorem length_encode (bs : List UInt8) :
    (encode bs).length = 2 * bs.length := by
  induction bs with
  | nil => rfl
  | cons b bs ih => simp only [encode, List.length_cons, ih]; omega

/-- Bytes are read back from their digits. -/
theorem decode?_encode (bs : List UInt8) :
    decode? (encode bs) = some bs := by
  induction bs with
  | nil => rfl
  | cons b bs ih =>
      have hb : b.toNat < 256 := b.toNat_lt
      have hi : b.toNat / 16 < 16 := by omega
      have lo : b.toNat % 16 < 16 := by omega
      have whole : 16 * (b.toNat / 16) + b.toNat % 16 = b.toNat := by omega
      simp only [encode, decode?, value?_digit _ hi, value?_digit _ lo, ih, Option.bind_eq_bind,
        Option.bind_some, Option.pure_def, whole, UInt8.ofNat_toNat]

theorem encode_append (bs ds : List UInt8) :
    encode (bs ++ ds) = encode bs ++ encode ds := by
  induction bs with
  | nil => rfl
  | cons b bs ih => simp only [List.cons_append, encode, ih]

/-- Two digits stand for a byte. -/
theorem length_text (bs : List UInt8) :
    (text bs).length = 2 * bs.length := by
  rw [text, String.length_ofList, length_encode]

/-- Bytes one behind the other are written so. -/
theorem text_append (bs ds : List UInt8) :
    text (bs ++ ds) = text bs ++ text ds := by
  rw [text, encode_append, String.ofList_append]
  rfl

/-- What is written reads back. -/
theorem bytes?_text (bs : List UInt8) : bytes? (text bs) = some bs := by
  rw [bytes?, text, String.toList_ofList, decode?_encode]

end Mnemonic.Text.Hex
