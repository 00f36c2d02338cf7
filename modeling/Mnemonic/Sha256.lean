/-
SHA-256. A message is padded to whole blocks of sixty-four bytes; each
block drives sixty-four rounds on eight words of state. The message
schedule is a window of sixteen words: a round reads its first word, and
the window then moves on by one, the new word being made from four of
the old ones.
-/
import Mnemonic.Digest
import Mnemonic.Numeral.Bytes

namespace Mnemonic.Sha256

open Numeral

-- ==================================================== padding

/-- A message with its end mark, zeros up to a whole block, and its
length in bits. -/
def pad (message : List UInt8) : List UInt8 :=
  let zeros := (119 - message.length % 64) % 64
  message ++ 0x80 :: List.replicate zeros 0 ++ Bytes.ofNat 8 (8 * message.length)

def word (a b c d : UInt8) : UInt32 :=
  a.toUInt32 <<< 24 ||| b.toUInt32 <<< 16 ||| c.toUInt32 <<< 8 ||| d.toUInt32

def bytesOfWord (w : UInt32) : Vector UInt8 4 :=
  #v[(w >>> 24).toUInt8, (w >>> 16).toUInt8, (w >>> 8).toUInt8, w.toUInt8]

/-- The block with the given number, from zero; bytes past the end read
as zero. -/
def block (padded : Array UInt8) (k : Nat) : Vector UInt32 16 :=
  Vector.ofFn fun i =>
    let byte (j : Nat) : UInt8 := padded.getD (64 * k + 4 * i.val + j) 0
    word (byte 0) (byte 1) (byte 2) (byte 3)

-- ==================================================== rounds

/-- The bits of a word turned to the right. -/
def rotate (w n : UInt32) : UInt32 := w >>> n ||| w <<< (32 - n)

def roundConstants : List UInt32 :=
  [0x428a2f98, 0x71374491, 0xb5c0fbcf, 0xe9b5dba5, 0x3956c25b, 0x59f111f1, 0x923f82a4, 0xab1c5ed5,
   0xd807aa98, 0x12835b01, 0x243185be, 0x550c7dc3, 0x72be5d74, 0x80deb1fe, 0x9bdc06a7, 0xc19bf174,
   0xe49b69c1, 0xefbe4786, 0x0fc19dc6, 0x240ca1cc, 0x2de92c6f, 0x4a7484aa, 0x5cb0a9dc, 0x76f988da,
   0x983e5152, 0xa831c66d, 0xb00327c8, 0xbf597fc7, 0xc6e00bf3, 0xd5a79147, 0x06ca6351, 0x14292967,
   0x27b70a85, 0x2e1b2138, 0x4d2c6dfc, 0x53380d13, 0x650a7354, 0x766a0abb, 0x81c2c92e, 0x92722c85,
   0xa2bfe8a1, 0xa81a664b, 0xc24b8b70, 0xc76c51a3, 0xd192e819, 0xd6990624, 0xf40e3585, 0x106aa070,
   0x19a4c116, 0x1e376c08, 0x2748774c, 0x34b0bcb5, 0x391c0cb3, 0x4ed8aa4a, 0x5b9cca4f, 0x682e6ff3,
   0x748f82ee, 0x78a5636f, 0x84c87814, 0x8cc70208, 0x90befffa, 0xa4506ceb, 0xbef9a3f7, 0xc67178f2]

/-- The eight words that the rounds work on. -/
structure State where
  a : UInt32
  b : UInt32
  c : UInt32
  d : UInt32
  e : UInt32
  f : UInt32
  g : UInt32
  h : UInt32

namespace State

/-- The state before the first block. -/
def start : State :=
  ⟨0x6a09e667, 0xbb67ae85, 0x3c6ef372, 0xa54ff53a, 0x510e527f, 0x9b05688c, 0x1f83d9ab, 0x5be0cd19⟩

/-- One round, with the sum of its constant and its word of the
schedule. -/
def round (s : State) (k : UInt32) : State :=
  let choice := (s.e &&& s.f) ^^^ (~~~s.e &&& s.g)
  let majority := (s.a &&& s.b) ^^^ (s.a &&& s.c) ^^^ (s.b &&& s.c)
  let t := s.h + (rotate s.e 6 ^^^ rotate s.e 11 ^^^ rotate s.e 25) + choice + k
  let u := (rotate s.a 2 ^^^ rotate s.a 13 ^^^ rotate s.a 22) + majority
  ⟨t + u, s.a, s.b, s.c, s.d + t, s.e, s.f, s.g⟩

/-- The sum of two states, word by word. -/
def add (s t : State) : State :=
  ⟨s.a + t.a, s.b + t.b, s.c + t.c, s.d + t.d, s.e + t.e, s.f + t.f, s.g + t.g, s.h + t.h⟩

def digest (s : State) : Digest :=
  bytesOfWord s.a ++ bytesOfWord s.b ++ bytesOfWord s.c ++ bytesOfWord s.d ++
    bytesOfWord s.e ++ bytesOfWord s.f ++ bytesOfWord s.g ++ bytesOfWord s.h

end State

/-- The schedule's window moved on by one word. -/
def slide (w : Vector UInt32 16) : Vector UInt32 16 :=
  let s₀ := rotate w[1] 7 ^^^ rotate w[1] 18 ^^^ (w[1] >>> 3)
  let s₁ := rotate w[14] 17 ^^^ rotate w[14] 19 ^^^ (w[14] >>> 10)
  w.tail.push (w[0] + s₀ + w[9] + s₁)

def absorb (s : State) (b : Vector UInt32 16) : State :=
  let step (st : State × Vector UInt32 16) (k : UInt32) := (st.1.round (k + st.2[0]), slide st.2)
  s.add (roundConstants.foldl step (s, b)).1

end Sha256

/-- The SHA-256 digest of some bytes. -/
def sha256 : Hash := fun message =>
  let padded := (Sha256.pad message).toArray
  let blocks := (List.range (padded.size / 64)).map (Sha256.block padded)
  (blocks.foldl Sha256.absorb Sha256.State.start).digest

end Mnemonic
