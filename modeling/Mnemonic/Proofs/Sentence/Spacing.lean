/-
How a sentence is spaced leaves no trace.

Every sentence is a layout of one sequence of words that can be tokens,
and of no other (`existsUnique_layout`). What is read of a sentence are
these words: splitting answers them with the length that they make, and
counts them where they make none. All that is asked of a sentence is
asked of its tokens, so two layouts of the same words get the same
answer, whichever way they are asked and over whichever list.

A character that is no blank never ends a word, however little of it can
be seen (`isToken_around`).
-/
import Mathlib.Logic.ExistsUnique
import Mnemonic.Proofs.Sentence.Outcome
import Mnemonic.Proofs.Text.Layout
import Mnemonic.Sentence.Abbreviation

namespace Mnemonic.Sentence

variable {H : Hash} {l : WordList} {s x : String} {us : List String}

-- =================================================== one sequence of words

/-- A sentence lays out one sequence of tokens and no other. -/
theorem existsUnique_layout (s : String) :
    ∃! us, (∀ u ∈ us, Text.IsToken u) ∧ Text.IsLayout us s := by
  refine ⟨Text.tokens s, ?_, ?_⟩
  · exact ⟨fun _ => Text.isToken_of_mem_tokens, Text.isLayout_tokens s⟩
  · rintro us ⟨hus, hs⟩
    exact (Text.tokens_eq_of_isLayout hs hus).symm

/-- Splitting a sentence ends with its tokens and their length, or with
their number. -/
theorem split_eq_of_tokens (h : Text.tokens s = us) :
    (Supported us.length →
        ∃ c : WordCount, c.words = us.length ∧ split s = .ok (us, c))
      ∧ (¬ Supported us.length →
          split s = .error (.wordCount us.length)) := by
  subst h
  refine ⟨fun hk => ?_, split_of_unsupported⟩
  obtain ⟨c, hc⟩ := supported_iff.1 hk
  exact ⟨c, hc, split_of_words hc⟩

/-- What stands around a character that is no blank makes one word with
it. -/
theorem isToken_around {c : Char} {a b : String}
    (hc : Text.isBlank c = false) (ha : Text.BlankFree a.toList)
    (hb : Text.BlankFree b.toList) :
    Text.IsToken (a ++ String.singleton c ++ b) := by
  refine ⟨?_, ?_⟩
  · intro hempty
    have hnil := String.toList_eq_nil_iff.2 hempty
    simp at hnil
  · intro d hd
    simp only [String.toList_append, String.toList_singleton,
      List.mem_append, List.mem_singleton] at hd
    rcases hd with (hd | rfl) | hd
    · exact ha d hd
    · exact hc
    · exact hb d hd

-- ===================================================== only tokens matter

/-- Whether a sentence is valid depends on its tokens only. -/
theorem validWith_congr (h : Text.tokens s = Text.tokens x) :
    validWith H l s = validWith H l x := by
  unfold validWith
  rw [payloadWith_congr h]

/-- So does what it expands to. -/
theorem expand_congr (h : Text.tokens s = Text.tokens x) :
    expand l s = expand l x := by
  unfold expand
  rw [h]

/-- Words that can be tokens, however they are laid out, are what
splitting answers, if they are as many as one of the lengths has, and
what it counts if they are not. Every sentence is a layout of one such
sequence only, and two layouts of the same sequence decode, check and
expand alike. Characters without the property White_Space, such as the
zero width space, the byte order mark and the information separators,
are parts of words. -/
theorem split_undoes_layout (H : Hash) (l : WordList) :
    (∀ us s, (∀ u ∈ us, Text.IsToken u) → Text.IsLayout us s →
        (Supported us.length →
            ∃ c : WordCount, c.words = us.length ∧ split s = .ok (us, c))
          ∧ (¬ Supported us.length →
              split s = .error (.wordCount us.length)))
      ∧ (∀ s, ∃! us, (∀ u ∈ us, Text.IsToken u) ∧ Text.IsLayout us s)
      ∧ (∀ us s x, (∀ u ∈ us, Text.IsToken u) →
          Text.IsLayout us s → Text.IsLayout us x →
          decodeWith H l s = decodeWith H l x
            ∧ decodeBytesWith H l s = decodeBytesWith H l x
            ∧ validWith H l s = validWith H l x
            ∧ expand l s = expand l x)
      ∧ ∀ c ∈ ['\u200b', '\ufeff', '\x1c', '\x1d', '\x1e', '\x1f'],
          ∀ a b : String, Text.BlankFree a.toList →
            Text.BlankFree b.toList →
            Text.tokens (a ++ String.singleton c ++ b)
              = [a ++ String.singleton c ++ b] := by
  refine ⟨fun us s hus hs => ?_, existsUnique_layout,
    fun us s x hus hs hx => ?_, fun c hc a b ha hb => ?_⟩
  · exact split_eq_of_tokens (Text.tokens_eq_of_isLayout hs hus)
  · have htokens : Text.tokens s = Text.tokens x := by
      rw [Text.tokens_eq_of_isLayout hs hus,
        Text.tokens_eq_of_isLayout hx hus]
    exact ⟨decodeWith_congr htokens, decodeBytesWith_congr htokens,
      validWith_congr htokens, expand_congr htokens⟩
  · -- a letter that is no blank does not end the token around it
    have hblank : Text.isBlank c = false := by
      simp only [List.mem_cons, List.not_mem_nil, or_false] at hc
      rcases hc with rfl | rfl | rfl | rfl | rfl | rfl <;> decide
    exact Text.tokens_of_isToken (isToken_around hblank ha hb)

end Mnemonic.Sentence
