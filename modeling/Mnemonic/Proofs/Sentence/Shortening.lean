/-
Expanding undoes abbreviating.

On a list whose words are told apart by their first four characters
(`WordList.SetApart`), whatever is cut from a listed word behind those
stands for that word again: if the rest is itself a word of the list it
is the same word, since the two share four characters, and if it is not
then the positions whose words it begins are one (`standsFor_of_shortens`).
So each word of a sentence may be cut on its own, and the expansion is
the sentence in full.
-/
import Mnemonic.Proofs.Sentence.Expansion
import Mnemonic.Proofs.Sentence.RoundTrip
import Mnemonic.Proofs.WordList.English

namespace Mnemonic.Sentence

/-- A text is a word of the list, or such a word cut behind its fourth
character or later. -/
structure Shortens (l : WordList) (a w : String) : Prop where
  listed : w ∈ l.words
  cut : a = w ∨ 4 ≤ a.length ∧ a.toList <+: w.toList

instance (l : WordList) (a w : String) : Decidable (Shortens l a w) :=
  decidable_of_iff
    (w ∈ l.words ∧ (a = w ∨ 4 ≤ a.length ∧ a.toList <+: w.toList))
    ⟨fun h => ⟨h.1, h.2⟩, fun h => ⟨h.listed, h.cut⟩⟩

variable {l : WordList} {a w : String} {p q : Fin 2048}

-- ============================================================= one word

/-- A beginning of four characters or more shows the first four. -/
theorem take_eq_of_begins (hlong : 4 ≤ a.length)
    (h : a.toList <+: w.toList) : w.toList.take 4 = a.toList.take 4 := by
  obtain ⟨r, hr⟩ := h
  rw [← String.length_toList] at hlong
  rw [← hr, List.take_append_of_le_length hlong]

/-- Two words that have a beginning of four characters in common stand
at one position. -/
theorem eq_of_beginsAt (hapart : l.SetApart) (hlong : 4 ≤ a.length)
    (hp : BeginsAt l a p) (hq : BeginsAt l a q) : p = q := by
  apply hapart
  · exact hlong.trans (length_le_of_begins hp)
  · exact hlong.trans (length_le_of_begins hq)
  · rw [take_eq_of_begins hlong hp, take_eq_of_begins hlong hq]

/-- A listed word is no beginning of another. -/
theorem eq_of_mem_of_begins (hapart : l.SetApart) (ha : a ∈ l.words)
    (hw : w ∈ l.words) (hlong : 4 ≤ a.length)
    (h : a.toList <+: w.toList) : a = w := by
  obtain ⟨p, rfl⟩ := WordList.exists_word_of_mem ha
  obtain ⟨q, rfl⟩ := WordList.exists_word_of_mem hw
  have hp : BeginsAt l (l.word p) p := List.prefix_rfl
  rw [eq_of_beginsAt hapart hlong hp h]

/-- What is left of a word stands for the word. -/
theorem standsFor_of_shortens (hapart : l.SetApart)
    (h : Shortens l a w) : StandsFor l a w := by
  obtain ⟨hw, rfl | ⟨hlong, hbegins⟩⟩ := h
  · exact .itself hw
  · by_cases ha : a ∈ l.words
    · obtain rfl := eq_of_mem_of_begins hapart ha hw hlong hbegins
      exact .itself hw
    · obtain ⟨p, rfl⟩ := WordList.exists_word_of_mem hw
      exact .abbreviated ha hlong hbegins
        fun q hq => eq_of_beginsAt hapart hlong hq hbegins

/-- What is left of a token when its end is cut off is a token. -/
theorem isToken_of_shortens (hw : Text.IsToken w)
    (h : Shortens l a w) : Text.IsToken a := by
  obtain ⟨-, rfl | ⟨hlong, hbegins⟩⟩ := h
  · exact hw
  · refine hw.of_begins ?_ hbegins
    rintro rfl
    cases hlong

-- ============================================================ sentences

variable {as ws : List String} {s : String}

theorem isToken_of_forall₂_shortens
    (htoken : ∀ w ∈ l.words, Text.IsToken w)
    (h : List.Forall₂ (Shortens l) as ws) :
    (∀ a ∈ as, Text.IsToken a) ∧ ∀ w ∈ ws, Text.IsToken w := by
  induction h with
  | nil => simp
  | cons ha _ ih =>
      have hw := htoken _ ha.listed
      rw [List.forall_mem_cons, List.forall_mem_cons]
      exact ⟨⟨isToken_of_shortens hw ha, ih.1⟩, hw, ih.2⟩

/-- Over a list of tokens told apart by their first four characters, the
words of a sentence may each be cut behind the fourth character or
later: the sentence expands to its words in full, with single spaces
between. Decoding the expansion is decoding the words in full, however
they are laid out. -/
theorem expand_shortened (htoken : ∀ w ∈ l.words, Text.IsToken w)
    (hapart : l.SetApart) (h : List.Forall₂ (Shortens l) as ws)
    (hs : Text.IsLayout as s) :
    expand l s = .ok (" ".intercalate ws)
      ∧ ∀ (H : Hash) (full : String), Text.IsLayout ws full →
          decodeWith H l (" ".intercalate ws) = decodeWith H l full := by
  obtain ⟨has, hws⟩ := isToken_of_forall₂_shortens htoken h
  refine ⟨?_, fun H full hfull => ?_⟩
  · apply expand_eq_ok_iff.2
    refine ⟨ws, ?_, rfl⟩
    rw [Text.tokens_eq_of_isLayout hs has]
    exact h.imp fun a w => standsFor_of_shortens hapart
  · have hspaced : Text.IsLayout ws (" ".intercalate ws) := by
      rw [← Text.spaced_eq_intercalate]
      exact Text.isLayout_spaced ws
    apply decodeWith_congr
    rw [Text.tokens_eq_of_isLayout hspaced hws,
      Text.tokens_eq_of_isLayout hfull hws]

/-- The words of sixteen zero bytes in English. -/
def zeroWords : List String := List.replicate 11 "abandon" ++ ["about"]

/-- The same words, each cut somewhere or not at all. -/
def cutWords : List String :=
  ["abandon", "abando", "aband"] ++ List.replicate 8 "aban" ++ ["abou"]

def cutSentence : String :=
  "\u3000abandon abando aband aban\n\naban aban aban aban aban aban " ++
    "aban\tabou "

/-- The English sentence for zero bytes decodes to them, in every
layout. -/
theorem decodeWith_zeroWords {full : String}
    (h : Text.IsLayout zeroWords full) :
    decodeWith sha256 WordList.english full = .ok (List.replicate 16 0) := by
  have hwords : encodeWith sha256 WordList.english (List.replicate 16 0)
      = zeroWords := by
    unfold encodeWith
    rw [positionsWith_zeros]
    rfl
  have htoken : ∀ w ∈ zeroWords, Text.IsToken w := by
    intro w hw
    rw [← hwords] at hw
    obtain ⟨g, -, rfl⟩ := List.mem_map.1 hw
    exact WordList.isToken_of_mem_english (WordList.english.word_mem g)
  apply decodeWith_eq_ok_iff_encodeWith.2
  refine ⟨⟨.twelve, rfl⟩, ?_, fun g _ => ?_⟩
  · rw [hwords, Text.tokens_eq_of_isLayout h htoken]
  · exact WordList.recovers_of_nodup WordList.nodup_englishWords g

/-- However its words are cut, an English sentence comes back in full,
and decodes. -/
theorem expand_shortened_english :
    expand WordList.english cutSentence
        = .ok (" ".intercalate zeroWords)
      ∧ decodeWith sha256 WordList.english (" ".intercalate zeroWords)
        = .ok (List.replicate 16 0) := by
  have hcut : List.Forall₂ (Shortens WordList.english) cutWords
      zeroWords := by
    decide +kernel
  have htokens : Text.tokens cutSentence = cutWords := by
    decide +kernel
  have hlayout := Text.isLayout_tokens cutSentence
  rw [htokens] at hlayout
  obtain ⟨hexpand, hdecode⟩ := expand_shortened
    (fun w => WordList.isToken_of_mem_english)
    WordList.english_setApart hcut hlayout
  refine ⟨hexpand, ?_⟩
  have hfull := Text.isLayout_spaced zeroWords
  rw [hdecode sha256 _ hfull]
  exact decodeWith_zeroWords hfull

end Mnemonic.Sentence
