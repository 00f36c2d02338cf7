/-
Hash functions: any function from byte strings to thirty-two bytes. The
library computes with one of them, but nothing it says about sentences
depends on which.
-/
namespace Mnemonic

/-- The value of a hash function. -/
abbrev Digest := Vector UInt8 32

def Digest.first (d : Digest) : UInt8 := d[0]

/-- A function from byte strings to digests. -/
abbrev Hash := List UInt8 → Digest

end Mnemonic
