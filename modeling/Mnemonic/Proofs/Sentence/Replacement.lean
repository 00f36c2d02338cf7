/-
What a sentence that decodes says about its tokens, and what becomes of
it when some of them are replaced.

The tokens are the words of the entropy, so encoding undoes decoding and
no two token sequences decode to the same entropy. This needs nothing of
the list: where words are repeated, only those at first positions are
ever found, and entropy that needs another position is the answer to no
sentence.

With tokens replaced by others from the list there are as many as before
and all are found, so only the checksum is left to refuse the sentence;
if it does not, the entropy is another. A word of the list that is empty
or has a blank in it is no token, and put in place of one it changes
their number (`replacing_by_word_with_blank`).
-/
import Mathlib.Data.List.Forall2
import Mnemonic.Proofs.Sentence.RoundTrip

namespace Mnemonic.Sentence

/-- Some words with any of them replaced by other words of the list that
can be tokens. -/
def Replaced (l : WordList) (ts us : List String) : Prop :=
  List.Forall₂ (fun t u => u = t ∨ u ∈ l.words ∧ Text.IsToken u) ts us

/-- What holds of some words and of all tokens on the list still holds
after a replacement. -/
theorem Replaced.forall_mem {l : WordList} {P : String → Prop}
    {ts us : List String} (h : Replaced l ts us) (hts : ∀ t ∈ ts, P t)
    (hlist : ∀ u ∈ l.words, Text.IsToken u → P u) : ∀ u ∈ us, P u := by
  induction h with
  | nil => exact hts
  | cons hhead _ ih =>
      obtain ⟨ht, hrest⟩ := List.forall_mem_cons.1 hts
      intro u hu
      rcases List.mem_cons.1 hu with rfl | hu
      · rcases hhead with rfl | ⟨hmem, htoken⟩
        · exact ht
        · exact hlist _ hmem htoken
      · exact ih hrest u hu

/-- The tokens of a sentence that decodes are the words of its
entropy. -/
theorem tokens_of_decodeWith {H : Hash} {l : WordList} {s : String}
    {entropy : List UInt8} (h : decodeWith H l s = .ok entropy) :
    Text.tokens s = encodeWith H l entropy :=
  (decodeWith_eq_ok_iff_encodeWith.1 h).2.1

/-- A sentence of a supported length whose tokens are all on the list
can only have a wrong checksum. -/
theorem decodeWith_of_lists {H : Hash} {l : WordList} {s : String}
    (hk : Supported (Text.tokens s).length)
    (hl : l.Lists (Text.tokens s)) :
    decodeWith H l s = .error .checksum
      ∨ ∃ entropy, decodeWith H l s = .ok entropy := by
  by_cases hcheck :
      Checks H (Text.tokens s).length (packed l (Text.tokens s))
  · exact Or.inr ⟨_, decodeWith_eq_ok_iff.2 ⟨hk, hl, hcheck, rfl⟩⟩
  · exact Or.inl (decodeWith_eq_error_iff.2 (.mismatch hk hl hcheck))

/-- A sentence that decodes has the words of its entropy for tokens, so
that no other tokens decode to this entropy. With tokens replaced by
other tokens from the list, the sentence decodes to other entropy or has
a wrong checksum. -/
theorem encodeWith_decodeWith (H : Hash) (l : WordList) :
    (∀ s entropy, decodeWith H l s = .ok entropy →
        Text.tokens s = encodeWith H l entropy)
      ∧ (∀ s t entropy, decodeWith H l s = .ok entropy →
          decodeWith H l t = .ok entropy →
          Text.tokens s = Text.tokens t)
      ∧ ∀ s t us entropy, decodeWith H l s = .ok entropy →
          Replaced l (Text.tokens s) us → us ≠ Text.tokens s →
          Text.IsLayout us t →
          decodeWith H l t = .error .checksum
            ∨ ∃ other, other ≠ entropy
              ∧ decodeWith H l t = .ok other := by
  refine ⟨fun s entropy => tokens_of_decodeWith, ?_, ?_⟩
  · intro s t entropy hs ht
    rw [tokens_of_decodeWith hs, tokens_of_decodeWith ht]
  · intro s t us entropy hs hreplaced hne hlay
    obtain ⟨hk, hl, -⟩ := decodeWith_eq_ok_iff.1 hs
    have htoken : ∀ u ∈ us, Text.IsToken u := by
      refine hreplaced.forall_mem (P := Text.IsToken) ?_ ?_
      · intro u hu
        exact Text.isToken_of_mem_tokens hu
      · intro u _ hu
        exact hu
    have hlists : l.Lists us := by
      refine hreplaced.forall_mem (P := (· ∈ l.words)) hl ?_
      intro u hu _
      exact hu
    have htokens : Text.tokens t = us :=
      Text.tokens_eq_of_isLayout hlay htoken
    rw [hreplaced.length_eq, ← htokens] at hk
    rw [← htokens] at hlists
    -- only the checksum can still refuse the changed sentence
    rcases decodeWith_of_lists (H := H) hk hlists with ht | ⟨other, ht⟩
    · exact Or.inl ht
    · refine Or.inr ⟨other, ?_, ht⟩
      -- bytes determine their tokens, and these were changed
      intro heq
      subst heq
      apply hne
      rw [← htokens, tokens_of_decodeWith ht, tokens_of_decodeWith hs]

theorem tokens_zeros : Text.tokens "a a a a a a a a a a a d"
    = List.replicate 11 "a" ++ ["d"] := by
  decide +kernel

/-- The sentence for zero bytes decodes to them. -/
theorem decodeWith_zeros :
    decodeWith sha256 awkwardList "a a a a a a a a a a a d"
      = .ok (List.replicate 16 0) := by
  apply decodeWith_eq_ok_iff_encodeWith.2
  refine ⟨⟨.twelve, rfl⟩, ?_, ?_⟩
  · rw [encodeWith_zeros, tokens_zeros]
  · intro g hg
    rw [WordList.recovers_iff ofWords_awkwardWords]
    exact (legible_zeros g hg).first

/-- Over a list with repeated and unusable words, the sentence for zero
bytes is the one that encoding makes; with another first word it is
refused or decodes to other bytes. -/
theorem encodeWith_decodeWith_awkward :
    Text.tokens "a a a a a a a a a a a d"
        = encodeWith sha256 awkwardList (List.replicate 16 0)
      ∧ (decodeWith sha256 awkwardList "e a a a a a a a a a a d"
          = .error .checksum
        ∨ ∃ other, other ≠ List.replicate 16 0
          ∧ decodeWith sha256 awkwardList "e a a a a a a a a a a d"
            = .ok other) := by
  have hus : Text.tokens "e a a a a a a a a a a d"
      = "e" :: (List.replicate 10 "a" ++ ["d"]) := by
    decide +kernel
  have hmem : "e" ∈ awkwardList.words := by
    apply List.mem_append_right ["a", "b c", "", "d"]
    exact (List.mem_replicate (n := 2044)).2 ⟨by omega, rfl⟩
  have hreplaced : Replaced awkwardList
      (Text.tokens "a a a a a a a a a a a d")
      (Text.tokens "e a a a a a a a a a a d") := by
    rw [tokens_zeros, hus]
    refine .cons (Or.inr ⟨hmem, by decide, by decide⟩) ?_
    exact List.forall₂_same.2 fun _ _ => Or.inl rfl
  have hne : Text.tokens "e a a a a a a a a a a d"
      ≠ Text.tokens "a a a a a a a a a a a d" := by
    rw [tokens_zeros, hus]
    simp
  refine ⟨?_, ?_⟩
  · exact (encodeWith_decodeWith sha256 awkwardList).1 _ _
      decodeWith_zeros
  · exact (encodeWith_decodeWith sha256 awkwardList).2.2 _ _ _ _
      decodeWith_zeros hreplaced hne (Text.isLayout_tokens _)

/-- A word of the list with a blank in it is no token: put in place of
one it makes two, and the sentence is refused for their number. -/
theorem replacing_by_word_with_blank :
    WordList.ofWords awkwardWords = .ok awkwardList
      ∧ decodeWith sha256 awkwardList "a a a a a a a a a a a d"
        = .ok (List.replicate 16 0)
      ∧ List.Forall₂ (fun t u => u = t ∨ u ∈ awkwardList.words)
          (Text.tokens "a a a a a a a a a a a d")
          ("b c" :: (List.replicate 10 "a" ++ ["d"]))
      ∧ Text.spaced ("b c" :: (List.replicate 10 "a" ++ ["d"]))
        = "b c a a a a a a a a a a d"
      ∧ decodeWith sha256 awkwardList "b c a a a a a a a a a a d"
        = .error (.wordCount 13)
      ∧ ¬ (decodeWith sha256 awkwardList "b c a a a a a a a a a a d"
            = .error .checksum
          ∨ ∃ other, other ≠ List.replicate 16 0
            ∧ decodeWith sha256 awkwardList "b c a a a a a a a a a a d"
              = .ok other) := by
  have hcount : (Text.tokens "b c a a a a a a a a a a d").length = 13 := by
    decide +kernel
  have hrefused : decodeWith sha256 awkwardList
      "b c a a a a a a a a a a d" = .error (.wordCount 13) := by
    rw [decodeWith_eq_error_iff, outcome_wordCount_iff, hcount]
    refine ⟨?_, rfl⟩
    unfold Supported
    omega
  refine ⟨ofWords_awkwardWords, decodeWith_zeros, ?_, by decide +kernel,
    hrefused, ?_⟩
  · rw [tokens_zeros]
    refine .cons (Or.inr (List.mem_cons_of_mem _ List.mem_cons_self)) ?_
    exact List.forall₂_same.2 fun _ _ => Or.inl rfl
  · rw [hrefused]
    intro h
    rcases h with h | ⟨_, -, h⟩
    · cases h
    · cases h

end Mnemonic.Sentence
