/-
Decoding is inverse to encoding.

Entropy of one of the five sizes is sealed by its checksum
(`Checksum.sealed`), and the bits of the sealed payload are the bits
that encoding cuts into positions (`bits_sealed`). Decoding goes the
other way: the bits of the positions found are those of the payload. So
a sentence decodes to some entropy exactly if its positions are those of
the entropy (`decodeWith_eq_ok_iff_bits`), that is, if its tokens are
the entropy's words and each of these words is found at the position it
stands for (`decodeWith_eq_ok_iff_encodeWith`). Everything said about
round trips, both ways, reads off this one equivalence.

Words of a list can fail to come back for three reasons: an empty word
is no token, a word with a blank in it falls apart into several, and a
repeated word is found at its first position. `Legible` excludes the
three of them, for one position.
-/
import Mathlib.Data.List.Nodup
import Mnemonic.Proofs.Sentence.Outcome
import Mnemonic.Proofs.Text.Layout
import Mnemonic.Proofs.WordList.Correspondence
import Mnemonic.Sentence.Encode

namespace Mnemonic

open Numeral

variable {H : Hash} {entropy : List UInt8} {c : WordCount}

-- ===================================================== sealed entropy

/-- Some entropy with its checksum. -/
def Checksum.sealed (H : Hash) (entropy : List UInt8) (c : WordCount) :
    Payload :=
  ⟨entropy, compute H entropy c⟩

/-- Sealed entropy has the widths of its length. -/
theorem Checksum.fits_sealed (h : entropy.length = c.entropyBytes) :
    (sealed H entropy c).Fits c :=
  ⟨h, compute_lt H entropy c⟩

/-- The five lengths of entropy belong to the five lengths of a
sentence. -/
theorem WordCount.exists_entropyBytes {n : Nat}
    (h : n ∈ [16, 20, 24, 28, 32]) :
    ∃ c : WordCount, n = c.entropyBytes := by
  simp only [List.mem_cons, List.not_mem_nil, or_false] at h
  rcases h with rfl | rfl | rfl | rfl | rfl
  · exact ⟨.twelve, rfl⟩
  · exact ⟨.fifteen, rfl⟩
  · exact ⟨.eighteen, rfl⟩
  · exact ⟨.twentyOne, rfl⟩
  · exact ⟨.twentyFour, rfl⟩

namespace Sentence

/-- The bits that are encoded are those of the sealed entropy. -/
theorem bits_sealed (h : entropy.length = c.entropyBytes) :
    (Checksum.sealed H entropy c).bits c = checkedBits H entropy := by
  unfold Payload.bits checkedBits Checksum.sealed
  rw [Checksum.bits_compute, h, c.entropyBytes_div]

theorem wordsFor_eq (h : entropy.length = c.entropyBytes) :
    wordsFor entropy.length = c.words := by
  rw [h]
  cases c <;> rfl

/-- The entropy and its checksum fill eleven bits a word. -/
theorem length_checkedBits (h : entropy.length = c.entropyBytes) :
    (checkedBits H entropy).length = bitsPerWord * c.words := by
  rw [← bits_sealed h, Payload.length_bits (Checksum.fits_sealed h),
    Nat.mul_comm]
  rfl

/-- Encoding takes the positions off the bits. -/
theorem map_positionsWith (H : Hash) (entropy : List UInt8) :
    (positionsWith H entropy).map (fun g => Index.ofPosition g.val)
      = Indices.ofBits (wordsFor entropy.length)
          (checkedBits H entropy) := by
  unfold positionsWith Indices.ofBits Bits.digits
  rw [List.map_map, List.map_map]
  apply List.map_congr_left
  intro g hg
  have hmem : Bits.value g
      ∈ Bits.digits 11 (wordsFor entropy.length) (checkedBits H entropy) :=
    List.mem_map_of_mem hg
  have hlt : Bits.value g < 2048 := Bits.lt_of_mem_digits hmem
  show UInt16.ofNat (Bits.value g % 2048) = UInt16.ofNat (Bits.value g)
  rw [Nat.mod_eq_of_lt hlt]

/-- There is a position for each word. -/
theorem length_positionsWith (h : entropy.length = c.entropyBytes) :
    (positionsWith H entropy).length = c.words := by
  unfold positionsWith
  rw [List.length_map, Bits.length_groups, wordsFor_eq h]

-- ==================================================== the equivalence

variable {l : WordList} {s : String}

/-- With the length known, a sentence passes its checks with some
entropy exactly if its positions write the checked bits of this entropy:
both say that its payload is the sealed entropy. -/
theorem checks_iff_bits (hc : c.words = (Text.tokens s).length)
    (hl : l.Lists (Text.tokens s)) :
    Checks H c.words (packed l (Text.tokens s))
        ∧ entropy = carried c.words (packed l (Text.tokens s))
      ↔ entropy.length = c.entropyBytes
        ∧ Indices.bits (l.positions (Text.tokens s))
          = checkedBits H entropy := by
  have hlen : (l.positions (Text.tokens s)).length = c.words := by
    rw [WordList.length_positions hl, hc]
  have hfits := Payload.fits_held (packed l (Text.tokens s)) c
  have hbits : (Payload.held (packed l (Text.tokens s)) c).bits c
      = Indices.bits (l.positions (Text.tokens s)) :=
    Payload.bits_held_pack hlen (l.fits_positions _)
  rw [← compute_held_iff, ← entropy_held, ← hbits]
  refine ⟨fun h => ?_, fun h => ?_⟩
  · obtain ⟨hcheck, he⟩ := h
    -- a payload that passes the check is sealed
    have hsealed : Checksum.sealed H entropy c
        = Payload.held (packed l (Text.tokens s)) c := by
      unfold Checksum.sealed
      rw [he, hcheck]
    have hsize : entropy.length = c.entropyBytes := by
      rw [he, hfits.entropy]
    refine ⟨hsize, ?_⟩
    rw [← hsealed, bits_sealed hsize]
  · obtain ⟨hsize, heq⟩ := h
    rw [← bits_sealed hsize] at heq
    -- and one with the bits of sealed entropy is that payload
    have hheld :=
      Payload.bits_injective hfits (Checksum.fits_sealed hsize) heq
    rw [hheld]
    exact ⟨rfl, rfl⟩

/-- A sentence decodes to the entropy whose checked bits its positions
write. -/
theorem decodeWith_eq_ok_iff_bits :
    decodeWith H l s = .ok entropy
      ↔ l.Lists (Text.tokens s)
        ∧ ∃ c : WordCount, c.words = (Text.tokens s).length
          ∧ entropy.length = c.entropyBytes
          ∧ Indices.bits (l.positions (Text.tokens s))
            = checkedBits H entropy := by
  rw [decodeWith_eq_ok_iff]
  refine ⟨fun h => ?_, fun h => ?_⟩
  · obtain ⟨hk, hl, h⟩ := h
    obtain ⟨c, hc⟩ := supported_iff.1 hk
    rw [← hc, checks_iff_bits hc hl] at h
    exact ⟨hl, c, hc, h⟩
  · obtain ⟨hl, c, hc, h⟩ := h
    rw [← checks_iff_bits hc hl, hc] at h
    exact ⟨supported_iff.2 ⟨c, hc⟩, hl, h⟩

/-- Positions write the checked bits of some entropy exactly if they are
those of its words. -/
theorem bits_eq_checkedBits_iff {is : List UInt16}
    (hfits : Indices.Fits is) (hsize : entropy.length = c.entropyBytes)
    (hlen : is.length = c.words) :
    Indices.bits is = checkedBits H entropy
      ↔ is = (positionsWith H entropy).map
          fun g => Index.ofPosition g.val := by
  rw [map_positionsWith, wordsFor_eq hsize]
  refine ⟨fun h => ?_, fun h => ?_⟩
  · rw [← h, ← hlen, Indices.ofBits_bits hfits]
  · rw [h, Indices.bits_ofBits (length_checkedBits hsize)]

/-- With all tokens listed, their positions write the checked bits of
some entropy exactly if they are the words of this entropy and its
positions find their way back. -/
theorem bits_positions_iff (hsize : entropy.length = c.entropyBytes)
    (hc : c.words = (Text.tokens s).length)
    (hl : l.Lists (Text.tokens s)) :
    Indices.bits (l.positions (Text.tokens s)) = checkedBits H entropy
      ↔ Text.tokens s = encodeWith H l entropy
        ∧ ∀ g ∈ positionsWith H entropy, l.Recovers g := by
  have hlen : (l.positions (Text.tokens s)).length = c.words := by
    rw [WordList.length_positions hl, hc]
  rw [bits_eq_checkedBits_iff (l.fits_positions _) hsize hlen,
    WordList.positions_eq_iff hl]
  rfl

/-- A sentence decodes to the entropy whose words it has for tokens, if
these words are looked up at the positions they were taken from. -/
theorem decodeWith_eq_ok_iff_encodeWith :
    decodeWith H l s = .ok entropy
      ↔ (∃ c : WordCount, entropy.length = c.entropyBytes)
        ∧ Text.tokens s = encodeWith H l entropy
        ∧ ∀ g ∈ positionsWith H entropy, l.Recovers g := by
  rw [decodeWith_eq_ok_iff_bits]
  refine ⟨fun h => ?_, fun h => ?_⟩
  · obtain ⟨hl, c, hc, hsize, h⟩ := h
    rw [bits_positions_iff hsize hc hl] at h
    exact ⟨⟨c, hsize⟩, h⟩
  · obtain ⟨⟨c, hsize⟩, htokens, hrec⟩ := h
    have hl : l.Lists (Text.tokens s) := by
      intro t ht
      rw [htokens] at ht
      obtain ⟨g, -, rfl⟩ := List.mem_map.1 ht
      exact List.get_mem _ _
    have hc : c.words = (Text.tokens s).length := by
      unfold encodeWith at htokens
      rw [htokens, List.length_map, length_positionsWith hsize]
    refine ⟨hl, c, hc, hsize, ?_⟩
    rw [bits_positions_iff hsize hc hl]
    exact ⟨htokens, hrec⟩

-- ========================================== decoding what was encoded

/-- The word at a position can be read back: it can be a token, and it
does not stand at an earlier position. -/
structure Legible (l : WordList) (g : Fin 2048) : Prop where
  isToken : Text.IsToken (l.word g)
  first : ∀ j < g, l.word j ≠ l.word g

/-- Over different words that can all be tokens, every position is
legible. -/
theorem legible_of_nodup {ws : List String}
    (hl : WordList.ofWords ws = .ok l) (hnodup : ws.Nodup)
    (htoken : ∀ w ∈ ws, Text.IsToken w) (g : Fin 2048) : Legible l g := by
  have hwords : l.words = ws := WordList.words_of_ofWords hl
  subst hwords
  refine ⟨htoken _ (l.word_mem g), ?_⟩
  intro j hj heq
  have hjg : j = g := WordList.word_injective hnodup heq
  rw [hjg] at hj
  exact lt_irrefl g hj

/-- A layout of the words of some entropy decodes to it if its positions
are all legible. -/
theorem decodeWith_of_legible {ws : List String}
    (hl : WordList.ofWords ws = .ok l)
    (hsize : ∃ c : WordCount, entropy.length = c.entropyBytes)
    (h : ∀ g ∈ positionsWith H entropy, Legible l g)
    (hs : Text.IsLayout (encodeWith H l entropy) s) :
    decodeWith H l s = .ok entropy := by
  have htoken : ∀ w ∈ encodeWith H l entropy, Text.IsToken w := by
    intro w hw
    obtain ⟨g, hg, rfl⟩ := List.mem_map.1 hw
    exact (h g hg).isToken
  apply decodeWith_eq_ok_iff_encodeWith.2
  refine ⟨hsize, Text.tokens_eq_of_isLayout hs htoken, ?_⟩
  intro g hg
  exact (WordList.recovers_iff hl g).2 (h g hg).first

/-- What some sentence decodes to has legible positions only. -/
theorem legible_of_decodeWith {ws : List String}
    (hl : WordList.ofWords ws = .ok l)
    (hs : decodeWith H l s = .ok entropy) :
    ∀ g ∈ positionsWith H entropy, Legible l g := by
  obtain ⟨-, htokens, hrec⟩ := decodeWith_eq_ok_iff_encodeWith.1 hs
  intro g hg
  have hmem : l.word g ∈ Text.tokens s := by
    rw [htokens]
    exact List.mem_map_of_mem hg
  exact ⟨Text.isToken_of_mem_tokens hmem,
    (WordList.recovers_iff hl g).1 (hrec g hg)⟩

/-- Entropy of one of the five sizes comes back from every sentence made
of its words if its positions are all legible, and from no sentence at
all if one is not. Over a list of different words that can all be tokens
it always comes back. -/
theorem decodeWith_encodeWith (H : Hash) {ws : List String}
    {l : WordList} (hl : WordList.ofWords ws = .ok l)
    {entropy : List UInt8} (hsize : entropy.length ∈ [16, 20, 24, 28, 32]) :
    ((∀ g ∈ positionsWith H entropy, Legible l g) →
        ∀ s, Text.IsLayout (encodeWith H l entropy) s →
          decodeWith H l s = .ok entropy)
      ∧ ((¬ ∀ g ∈ positionsWith H entropy, Legible l g) →
          ∀ s, decodeWith H l s ≠ .ok entropy)
      ∧ (ws.Nodup → (∀ w ∈ ws, Text.IsToken w) →
          ∀ s, Text.IsLayout (encodeWith H l entropy) s →
            decodeWith H l s = .ok entropy) := by
  have hcount := WordCount.exists_entropyBytes hsize
  refine ⟨?_, ?_, ?_⟩
  · intro h s hs
    exact decodeWith_of_legible hl hcount h hs
  · intro h s hs
    exact h (legible_of_decodeWith hl hs)
  · intro hnodup htoken s hs
    apply decodeWith_of_legible hl hcount _ hs
    intro g _
    exact legible_of_nodup hl hnodup htoken g

/-- Words of every awkward kind: one with a blank in it, an empty one,
and one that is repeated. -/
def awkwardWords : List String :=
  "a" :: "b c" :: "" :: "d" :: List.replicate 2044 "e"

theorem length_awkwardWords : awkwardWords.length = 2048 := by
  show (List.replicate 2044 "e").length + 4 = 2048
  rw [List.length_replicate]

def awkwardList : WordList where
  words := awkwardWords
  index := Index.ofFirst awkwardWords
  length_words := length_awkwardWords
  serves := Index.ofFirst_serves (by rw [length_awkwardWords]; omega)

theorem ofWords_awkwardWords :
    WordList.ofWords awkwardWords = .ok awkwardList :=
  dif_pos length_awkwardWords

/-- Zero bytes make eleven positions that are zero, and the checksum
makes the last one three. -/
theorem positionsWith_zeros :
    positionsWith sha256 (List.replicate 16 0)
      = List.replicate 11 0 ++ [3] := by
  decide +kernel

theorem encodeWith_zeros :
    encodeWith sha256 awkwardList (List.replicate 16 0)
      = List.replicate 11 "a" ++ ["d"] := by
  unfold encodeWith
  rw [positionsWith_zeros]
  rfl

/-- Sixteen zero bytes are encoded by two positions of the list, and
both are legible. -/
theorem legible_zeros :
    ∀ g ∈ positionsWith sha256 (List.replicate 16 0),
      Legible awkwardList g := by
  intro g hg
  rw [positionsWith_zeros, List.mem_append, List.mem_replicate,
    List.mem_singleton] at hg
  rcases hg with ⟨-, rfl⟩ | rfl
  · refine ⟨⟨by decide, by decide⟩, ?_⟩
    intro j hj
    exact absurd hj (Fin.not_lt_zero j)
  · refine ⟨⟨by decide, by decide⟩, ?_⟩
    intro j hj
    obtain ⟨j, hlt⟩ := j
    have hj3 : j < 3 := hj
    have hsmall : j = 0 ∨ j = 1 ∨ j = 2 := by omega
    rcases hsmall with rfl | rfl | rfl
    · show "a" ≠ "d"
      simp
    · show "b c" ≠ "d"
      simp
    · show "" ≠ "d"
      simp

/-- Different words that can all be tokens. -/
def tallyWords : List String :=
  (List.range 2048).map fun n =>
    String.ofList (List.replicate (n + 1) '|')

theorem length_tallyWords : tallyWords.length = 2048 := by
  unfold tallyWords
  rw [List.length_map, List.length_range]

/-- No two tallies are alike, since they differ in length. -/
theorem nodup_tallyWords : tallyWords.Nodup := by
  apply List.nodup_range.map
  intro m n h
  have hlen := congrArg List.length (String.ofList_injective h)
  rw [List.length_replicate, List.length_replicate] at hlen
  omega

theorem isToken_of_mem_tallyWords {w : String} (h : w ∈ tallyWords) :
    Text.IsToken w := by
  obtain ⟨n, -, rfl⟩ := List.mem_map.1 h
  refine ⟨?_, ?_⟩
  · intro hempty
    have hnil := String.toList_eq_nil_iff.2 hempty
    rw [String.toList_ofList, List.replicate_succ] at hnil
    cases hnil
  · intro c hc
    rw [String.toList_ofList, List.mem_replicate] at hc
    rw [hc.2]
    decide

/-- All three statements at work: over the awkward list sixteen zero
bytes come back, whatever the blanks, and an entropy whose first word
has a blank in it never does; over the tally words zero bytes come back
as well. -/
theorem decodeWith_encodeWith_awkward :
    decodeWith sha256 awkwardList "\ta a a  a a a a a a a a d\n"
        = .ok (List.replicate 16 0)
      ∧ (∀ s, decodeWith sha256 awkwardList s
          ≠ .ok (0 :: 32 :: List.replicate 14 0))
      ∧ ∃ l, WordList.ofWords tallyWords = .ok l
          ∧ decodeWith sha256 l
              (Text.spaced (encodeWith sha256 l (List.replicate 16 0)))
            = .ok (List.replicate 16 0) := by
  have htokens : Text.tokens "\ta a a  a a a a a a a a d\n"
      = encodeWith sha256 awkwardList (List.replicate 16 0) := by
    rw [encodeWith_zeros]
    decide +kernel
  have hlay : Text.IsLayout
      (encodeWith sha256 awkwardList (List.replicate 16 0))
      "\ta a a  a a a a a a a a d\n" := by
    rw [← htokens]
    exact Text.isLayout_tokens _
  have hblank : ¬ ∀ g ∈ positionsWith sha256
      (0 :: 32 :: List.replicate 14 0), Legible awkwardList g := by
    intro h
    have hmem : (1 : Fin 2048)
        ∈ positionsWith sha256 (0 :: 32 :: List.replicate 14 0) :=
      List.mem_cons_self
    exact absurd (h 1 hmem).isToken.blankFree (by decide)
  have htally : WordList.ofWords tallyWords = .ok _ :=
    dif_pos length_tallyWords
  refine ⟨?_, ?_, _, htally, ?_⟩
  · exact (decodeWith_encodeWith sha256 ofWords_awkwardWords (by decide)).1
      legible_zeros _ hlay
  · exact (decodeWith_encodeWith sha256 ofWords_awkwardWords
      (by decide)).2.1 hblank
  · exact (decodeWith_encodeWith sha256 htally (by decide)).2.2
      nodup_tallyWords (fun _ => isToken_of_mem_tallyWords) _
      (Text.isLayout_spaced _)

end Sentence

end Mnemonic
