/-
How many words complete a sentence.

With all words of a sentence fixed but the last, the number its
positions write is known up to its low eleven bits, those of the last
position. The checksum takes the lowest of them; the others are the end
of the entropy. So once these others are chosen, the entropy is known,
its digest asks for certain checksum bits, and one position has both:
`completing`. A position passes the check exactly if it is the one that
its own high bits call for (`checks_iff_completing`), whatever the hash
function is.

Over a list of different words each position is reached by its word, so
there is one completing word for each choice of the high bits, and as
many as there are such choices.
-/
import Mathlib.Data.List.FinRange
import Mnemonic.Proofs.Sentence.Agreement

namespace Mnemonic.Sentence

open Numeral

variable {H : Hash} {n p g h : Nat}

-- ============================================= the last position

/-- The checksum bits that the digest asks for when `p` is the number of
the words in front and `h` the high bits of the last position. -/
def asked (H : Hash) (n p h : Nat) : Nat :=
  Bits.value ((Bits.ofBytes
    (H (Bytes.ofNat (4 * n / 3) (p * 2 ^ (11 - n / 3) + h))).toList).take
      (n / 3))

/-- The last position with the given high bits that passes the check. -/
def completing (H : Hash) (n p h : Nat) : Nat :=
  h * 2 ^ (n / 3) + asked H n p h

/-- What the digest asks for has as many bits as the checksum. -/
theorem asked_lt (H : Hash) (n p h : Nat) :
    asked H n p h < 2 ^ (n / 3) := by
  unfold asked
  calc Bits.value _ < 2 ^ _ := Bits.value_lt _
    _ ≤ 2 ^ (n / 3) :=
      Nat.pow_le_pow_right (by omega) (List.length_take_le _ _)

/-- The completing position has the high bits that it was made for. -/
theorem completing_div (H : Hash) (n p h : Nat) :
    completing H n p h / 2 ^ (n / 3) = h := by
  unfold completing
  rw [Nat.add_comm, Nat.add_mul_div_right _ _ (Nat.two_pow_pos _),
    Nat.div_eq_of_lt (asked_lt H n p h), Nat.zero_add]

/-- Eleven bits part into the high ones and those of the checksum. -/
theorem two_pow_mul_two_pow (hn : n / 3 ≤ 11) :
    2 ^ (11 - n / 3) * 2 ^ (n / 3) = 2048 := by
  rw [← Nat.pow_add, Nat.sub_add_cancel hn]

/-- The completing position is a position of the list. -/
theorem completing_lt (hn : n / 3 ≤ 11) (hh : h < 2 ^ (11 - n / 3)) :
    completing H n p h < 2048 := by
  rw [← two_pow_mul_two_pow hn, ← Nat.div_lt_iff_lt_mul (Nat.two_pow_pos _),
    completing_div]
  exact hh

theorem high_lt (hn : n / 3 ≤ 11) (hg : g < 2048) :
    g / 2 ^ (n / 3) < 2 ^ (11 - n / 3) := by
  rwa [Nat.div_lt_iff_lt_mul (Nat.two_pow_pos _), two_pow_mul_two_pow hn]

/-- A last position passes the check exactly if it is the one that its
high bits call for. -/
theorem checks_iff_completing (hn : n / 3 ≤ 11) :
    Checks H n (p * 2048 + g) ↔ g = completing H n p (g / 2 ^ (n / 3)) := by
  have hsplit : p * 2048 + g = g + p * 2 ^ (11 - n / 3) * 2 ^ (n / 3) := by
    rw [Nat.mul_assoc, two_pow_mul_two_pow hn, Nat.add_comm]
  have hmod : (p * 2048 + g) % 2 ^ (n / 3) = g % 2 ^ (n / 3) := by
    rw [hsplit, Nat.add_mul_mod_self_right]
  have hdiv : (p * 2048 + g) / 2 ^ (n / 3)
      = p * 2 ^ (11 - n / 3) + g / 2 ^ (n / 3) := by
    rw [hsplit, Nat.add_mul_div_right _ _ (Nat.two_pow_pos _), Nat.add_comm]
  have hasked : Checks H n (p * 2048 + g)
      ↔ g % 2 ^ (n / 3) = asked H n p (g / 2 ^ (n / 3)) := by
    unfold Checks carried asked
    rw [hmod, hdiv]
  have hparts := Nat.div_add_mod' g (2 ^ (n / 3))
  rw [hasked]
  unfold completing
  omega

-- ================================================== the last word

/-- Words that lack one to make a sentence of a length, over a list of
different words that can all be tokens. -/
structure LacksLast (l : WordList) (us : List String) (c : WordCount) :
    Prop where
  distinct : l.words.Nodup
  isToken : ∀ w ∈ l.words, Text.IsToken w
  listed : l.Lists us
  length_eq : us.length + 1 = c.words

variable {l : WordList} {us : List String} {c : WordCount}
variable {w s : String} {i : UInt16}

/-- One more word adds its position as the last eleven bits. -/
theorem packed_snoc (hi : l.index? w = some i) :
    packed l (us ++ [w]) = packed l us * 2048 + i.toNat := by
  have hpos : l.positions (us ++ [w]) = l.positions us ++ [i] := by
    show List.filterMap l.index? (us ++ [w]) = _
    rw [List.filterMap_append, List.filterMap_cons_some hi]
    rfl
  unfold packed
  rw [hpos, Indices.pack_snoc_eq_add _ (WordList.index?_lt hi)]

namespace LacksLast

/-- The words and the last one are the tokens of every sentence that
lays them out. -/
theorem tokens_eq (hlack : LacksLast l us c) (hw : w ∈ l.words)
    (hs : Text.IsLayout (us ++ [w]) s) : Text.tokens s = us ++ [w] := by
  apply Text.tokens_eq_of_isLayout hs
  intro v hv
  rcases List.mem_append.1 hv with hv | hv
  · exact hlack.isToken v (hlack.listed v hv)
  · rw [List.mem_singleton] at hv
    rw [hv]
    exact hlack.isToken w hw

theorem supported (hlack : LacksLast l us c) :
    Supported (us ++ [w]).length := by
  apply supported_iff.2
  refine ⟨c, ?_⟩
  rw [List.length_append, List.length_singleton, hlack.length_eq]

theorem lists (hlack : LacksLast l us c) (hw : w ∈ l.words) :
    l.Lists (us ++ [w]) := by
  intro v hv
  rcases List.mem_append.1 hv with hv | hv
  · exact hlack.listed v hv
  · rw [List.mem_singleton] at hv
    rw [hv]
    exact hw

/-- With a last word from the list, all that counts is the check on its
position. -/
theorem validWith_iff (hlack : LacksLast l us c)
    (hi : l.index? w = some i) (hs : Text.IsLayout (us ++ [w]) s) :
    validWith H l s = true
      ↔ Checks H c.words (packed l us * 2048 + i.toNat) := by
  have hw : w ∈ l.words := List.mem_of_getElem? (WordList.word?_of_index? hi)
  rw [validWith_iff_checks, hlack.tokens_eq hw hs,
    and_iff_right hlack.supported, and_iff_right (hlack.lists hw),
    packed_snoc hi, List.length_append, List.length_singleton,
    hlack.length_eq]

end LacksLast

theorem words_div_le (c : WordCount) : c.words / 3 ≤ 11 :=
  Nat.le_trans c.checksumBits_le.2 (by omega)

/-- The word that completes a sentence when its position is to have the
given high bits. -/
def completingWord (H : Hash) (l : WordList) (us : List String)
    (c : WordCount) (h : Fin (2 ^ (11 - c.words / 3))) : String :=
  l.word ⟨completing H c.words (packed l us) h,
    completing_lt (words_div_le c) h.isLt⟩

namespace LacksLast

/-- A last word is right and has the given high bits exactly if it is the
completing word for them. -/
theorem validWith_and_high_iff (hlack : LacksLast l us c)
    (hs : Text.IsLayout (us ++ [w]) s)
    (h : Fin (2 ^ (11 - c.words / 3))) :
    (validWith H l s = true
        ∧ ∃ i, l.index? w = some i ∧ i.toNat / 2 ^ (c.words / 3) = h)
      ↔ w = completingWord H l us c h := by
  refine ⟨fun hw => ?_, fun hw => ?_⟩
  · obtain ⟨hvalid, i, hi, hhigh⟩ := hw
    -- the check leaves one position with these high bits
    rw [hlack.validWith_iff hi hs, checks_iff_completing (words_div_le c),
      hhigh] at hvalid
    apply WordList.eq_word_of_index?
    show l.index? w = some (Index.ofPosition (completing H c.words _ h))
    rw [← hvalid, hi, Index.ofPosition, UInt16.ofNat_toNat]
  · have hlt : completing H c.words (packed l us) h < 2048 :=
      completing_lt (words_div_le c) h.isLt
    have hi : l.index? w = some
        (Index.ofPosition (completing H c.words (packed l us) h)) := by
      rw [hw]
      exact WordList.recovers_of_nodup hlack.distinct ⟨_, hlt⟩
    have hpos := Index.toNat_ofPosition (Nat.lt_trans hlt (by decide))
    refine ⟨?_, _, hi, ?_⟩
    · rw [hlack.validWith_iff hi hs, hpos,
        checks_iff_completing (words_div_le c), completing_div]
    · rw [hpos, completing_div]

/-- Different high bits are completed by different words, as no word of
the list is repeated. -/
theorem completingWord_injective (hlack : LacksLast l us c) :
    Function.Injective (completingWord H l us c) := by
  intro h j heq
  have hval := congrArg Fin.val (WordList.word_injective hlack.distinct heq)
  have hdiv := congrArg (· / 2 ^ (c.words / 3)) hval
  simp only [completing_div] at hdiv
  exact Fin.ext hdiv

end LacksLast

/-- Over a list of different words, words that lack one to make a
sentence are completed by one word for each choice of the position's
high bits, and by no other; any other has a wrong checksum. How the
sentence is laid out does not matter. -/
theorem completing_last_words (H : Hash) {l : WordList}
    (hdistinct : l.words.Nodup) (htoken : ∀ w ∈ l.words, Text.IsToken w)
    {c : WordCount} {us : List String} (hlisted : ∀ u ∈ us, u ∈ l.words)
    (hlength : us.length + 1 = c.words) {text : String → String}
    (htext : ∀ w ∈ l.words, Text.IsLayout (us ++ [w]) (text w)) :
    (l.words.countP fun w => validWith H l (text w))
        = 2 ^ (11 - c.words / 3)
      ∧ (∀ h < 2 ^ (11 - c.words / 3), ∃! w, w ∈ l.words
          ∧ validWith H l (text w) = true
          ∧ ∃ i, l.index? w = some i ∧ i.toNat / 2 ^ (c.words / 3) = h)
      ∧ ∀ w ∈ l.words, validWith H l (text w) = false
          ↔ decodeWith H l (text w) = .error .checksum := by
  have hlack : LacksLast l us c := ⟨hdistinct, htoken, hlisted, hlength⟩
  refine ⟨?_, fun h hh => ?_, fun w hw => ?_⟩
  · -- the valid last words are the completing ones, in another order
    have hperm : List.Perm
        (l.words.filter fun w => validWith H l (text w))
        ((List.finRange _).map (completingWord H l us c)) := by
      apply (List.perm_ext_iff_of_nodup ?_ ?_).2
      · intro w
        rw [List.mem_filter, List.mem_map]
        refine ⟨fun hw => ?_, fun hw => ?_⟩
        · obtain ⟨hmem, hvalid⟩ := hw
          obtain ⟨i, hi⟩ := WordList.exists_index? hmem
          have hhigh := high_lt (words_div_le c) (WordList.index?_lt hi)
          refine ⟨⟨_, hhigh⟩, List.mem_finRange _, ?_⟩
          exact ((hlack.validWith_and_high_iff (htext w hmem) ⟨_, hhigh⟩).1
            ⟨hvalid, i, hi, rfl⟩).symm
        · obtain ⟨h, -, rfl⟩ := hw
          have hmem : completingWord H l us c h ∈ l.words := l.word_mem _
          exact ⟨hmem, ((hlack.validWith_and_high_iff (htext _ hmem) h).2
            rfl).1⟩
      · exact hdistinct.filter _
      · exact (List.nodup_finRange _).map hlack.completingWord_injective
    rw [List.countP_eq_length_filter, hperm.length_eq, List.length_map,
      List.length_finRange]
  · have hmem : completingWord H l us c ⟨h, hh⟩ ∈ l.words := l.word_mem _
    refine ⟨completingWord H l us c ⟨h, hh⟩, ⟨hmem, ?_⟩, ?_⟩
    · exact (hlack.validWith_and_high_iff (htext _ hmem) ⟨h, hh⟩).2 rfl
    · intro w hw
      obtain ⟨hmem', hvalid⟩ := hw
      exact (hlack.validWith_and_high_iff (htext w hmem') ⟨h, hh⟩).1 hvalid
  · rw [Bool.eq_false_iff, ne_eq, validWith_iff_checks,
      decodeWith_eq_error_iff, outcome_checksum_iff,
      hlack.tokens_eq hw (htext w hw), and_iff_right hlack.supported,
      and_iff_right (hlack.lists hw), and_iff_right hlack.supported,
      and_iff_right (hlack.lists hw)]

/-- Twenty-three words over the tally words are completed by eight of
them, one of which is among the sixth lot of 256. -/
theorem completing_last_words_tally :
    ∃ l, WordList.ofWords tallyWords = .ok l
      ∧ (l.words.countP fun w => validWith sha256 l
          (Text.spaced (List.replicate 23 "|" ++ [w]))) = 8
      ∧ ∃! w, w ∈ l.words
        ∧ validWith sha256 l (Text.spaced (List.replicate 23 "|" ++ [w]))
          = true
        ∧ ∃ i, l.index? w = some i ∧ i.toNat / 256 = 5 := by
  obtain ⟨l, hl⟩ := WordList.exists_ofWords length_tallyWords
  have hwords : l.words = tallyWords := WordList.words_of_ofWords hl
  have hdistinct : l.words.Nodup := by
    rw [hwords]
    exact nodup_tallyWords
  have htoken : ∀ w ∈ l.words, Text.IsToken w := by
    intro w hw
    rw [hwords] at hw
    exact isToken_of_mem_tallyWords hw
  have hlisted : ∀ u ∈ List.replicate 23 "|", u ∈ l.words := by
    intro u hu
    rw [(List.mem_replicate.1 hu).2, hwords]
    exact List.mem_map.2 ⟨0, List.mem_range.2 (by omega), rfl⟩
  have hlength : (List.replicate 23 "|").length + 1
      = WordCount.twentyFour.words := rfl
  obtain ⟨hcount, hunique, -⟩ := completing_last_words sha256 hdistinct
    htoken hlisted hlength fun w _ => Text.isLayout_spaced _
  exact ⟨l, hl, hcount, hunique 5 (by decide)⟩

end Mnemonic.Sentence
