/-
A sequence of word positions as one number. Each position takes eleven
bits, the first being the most significant, so the positions are the
digits of the number in base 2048.
-/
import Mnemonic.WordCount

namespace Mnemonic.Numeral.Indices

/-- The number whose digits in base 2048 are the given positions. -/
def pack (is : List UInt16) : Nat :=
  is.foldl (fun v i => (v <<< bitsPerWord) ||| i.toNat) 0

@[simp] theorem pack_nil : pack [] = 0 := rfl

@[simp] theorem pack_snoc (is : List UInt16) (i : UInt16) :
    pack (is ++ [i]) = (pack is <<< bitsPerWord) ||| i.toNat := by
  simp [pack]

example : pack [1, 2, 3] = (1 * 2048 + 2) * 2048 + 3 := by decide

end Mnemonic.Numeral.Indices
