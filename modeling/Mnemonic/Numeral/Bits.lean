/-
Numbers as bit strings of a given width, most significant bit first,
and the division of a bit string into groups.
-/
namespace Mnemonic.Numeral.Bits

/-- The low `w` bits of a number, most significant first. -/
def ofNat : Nat → Nat → List Bool
  | 0, _ => []
  | w + 1, n => ofNat w (n / 2) ++ [n % 2 == 1]

/-- The number that a bit string writes. -/
def value (bits : List Bool) : Nat :=
  bits.foldl (fun v b => 2 * v + b.toNat) 0

/-- The bits of some bytes, eight a byte. -/
def ofBytes (bs : List UInt8) : List Bool :=
  bs.flatMap fun b => ofNat 8 b.toNat

/-- The first `m` groups of `k` bits each. -/
def groups (k : Nat) : Nat → List Bool → List (List Bool)
  | 0, _ => []
  | m + 1, bits => bits.take k :: groups k m (bits.drop k)

@[simp] theorem length_ofNat (w n : Nat) : (ofNat w n).length = w := by
  induction w generalizing n with
  | zero => rfl
  | succ w ih => simp [ofNat, ih]

@[simp] theorem value_nil : value [] = 0 := rfl

@[simp] theorem value_snoc (bits : List Bool) (b : Bool) :
    value (bits ++ [b]) = 2 * value bits + b.toNat := by
  simp [value]

@[simp] theorem length_ofBytes (bs : List UInt8) :
    (ofBytes bs).length = 8 * bs.length := by
  induction bs with
  | nil => rfl
  | cons b bs ih =>
      have hcons : ofBytes (b :: bs) = ofNat 8 b.toNat ++ ofBytes bs := rfl
      rw [hcons, List.length_append, length_ofNat, ih, List.length_cons]
      omega

@[simp] theorem length_groups (k m : Nat) (bits : List Bool) :
    (groups k m bits).length = m := by
  induction m generalizing bits with
  | zero => rfl
  | succ m ih => simp [groups, ih]

end Mnemonic.Numeral.Bits
