/-
Numbers as bytes, most significant byte first: a fixed number of bytes,
the fewest bytes that hold a number, and the change from one length to
another. Zero takes one byte, so no number has an empty form.
-/
namespace Mnemonic.Numeral.Bytes

-- ==================================================== values

/-- The number that some bytes write. -/
def value (bs : List UInt8) : Nat :=
  bs.foldl (fun v b => 256 * v + b.toNat) 0

@[simp] theorem value_nil : value [] = 0 := rfl

@[simp] theorem value_snoc (bs : List UInt8) (b : UInt8) :
    value (bs ++ [b]) = 256 * value bs + b.toNat := by
  simp [value]

-- ==================================================== forms

/-- The low `len` bytes of a number. -/
def ofNat : Nat → Nat → List UInt8
  | 0, _ => []
  | len + 1, n => ofNat len (n / 256) ++ [UInt8.ofNat n]

/-- How many bits a number takes, none for zero. -/
def bitLength (n : Nat) : Nat := if n = 0 then 0 else n.log2 + 1

/-- How many bytes a number takes, one for zero. -/
def byteLength (n : Nat) : Nat := max 1 ((bitLength n + 7) / 8)

/-- The fewest bytes that write a number. -/
def minimal (n : Nat) : List UInt8 := ofNat (byteLength n) n

@[simp] theorem length_ofNat (len n : Nat) :
    (ofNat len n).length = len := by
  induction len generalizing n with
  | zero => rfl
  | succ len ih => simp [ofNat, ih]

example : minimal 0 = [0] ∧ minimal 255 = [255] ∧ minimal 256 = [1, 0] := by
  decide

-- ==================================================== another length

/-- Some bytes brought to the length `len`: zeros go in front of too
few, and of too many only the last remain. -/
def leftPad (bs : List UInt8) (len : Nat) : List UInt8 :=
  let significant := min bs.length len
  List.replicate (len - significant) 0 ++ bs.drop (bs.length - significant)

@[simp] theorem length_leftPad (bs : List UInt8) (len : Nat) :
    (leftPad bs len).length = len := by
  simp only [leftPad, List.length_append, List.length_replicate, List.length_drop]
  omega

/-- Bytes that have the length already stay as they are. -/
theorem leftPad_self (bs : List UInt8) : leftPad bs bs.length = bs := by
  simp [leftPad]

example : leftPad [7] 3 = [0, 0, 7] ∧ leftPad [7, 8, 9] 2 = [8, 9] := by
  decide

end Mnemonic.Numeral.Bytes
