/-
Expanding what is already in full.

A listed word stands for itself. A sentence in which every token is on
the list therefore expands to its tokens (`expand_of_lists`): the blanks
between them become single spaces, and nothing else changes. Two kinds
of sentence are of this form.

One is a sentence that decodes, or would but for its checksum. Decoding
has found every token of it, whatever else the list holds.

The other is an expansion, if no word of the list holds a blank. What a
token stands for is not empty, since the token begins it, so without
blanks it can be a token (`isToken_of_standsFor`), and the expansion
comes apart into the words it was made of (`forall₂_standsFor_tokens`).
A word with a blank in it would come apart itself.
-/
import Mnemonic.Proofs.Sentence.Agreement
import Mnemonic.Proofs.Sentence.Candidates

namespace Mnemonic.Sentence

variable {l : WordList} {t w : String} {ts ws : List String}
  {s x : String} {H : Hash}

-- ================================================ what a token stands for

theorem mem_of_standsFor (h : StandsFor l t w) : w ∈ l.words := by
  cases h with
  | itself hmem => exact hmem
  | abbreviated => exact l.word_mem _

/-- A token begins the word that it stands for. -/
theorem begins_of_standsFor (h : StandsFor l t w) :
    t.toList <+: w.toList := by
  cases h with
  | itself => exact List.prefix_rfl
  | abbreviated _ _ hbegins _ => exact hbegins

/-- A word without blanks for which a token stands is a token: it has
the token's letters at least. -/
theorem isToken_of_standsFor
    (hfree : ∀ w ∈ l.words, Text.BlankFree w.toList)
    (ht : Text.IsToken t) (h : StandsFor l t w) : Text.IsToken w := by
  refine ⟨?_, hfree w (mem_of_standsFor h)⟩
  rintro rfl
  have hnil : t.toList = [] := List.prefix_nil.1 (begins_of_standsFor h)
  exact ht.ne_empty (String.toList_eq_nil_iff.1 hnil)

theorem lists_of_forall₂ (h : List.Forall₂ (StandsFor l) ts ws) :
    l.Lists ws := by
  induction h with
  | nil =>
      intro w hw
      cases hw
  | cons hw _ ih => exact WordList.lists_cons.2 ⟨mem_of_standsFor hw, ih⟩

theorem isToken_of_forall₂
    (hfree : ∀ w ∈ l.words, Text.BlankFree w.toList)
    (hts : ∀ t ∈ ts, Text.IsToken t)
    (h : List.Forall₂ (StandsFor l) ts ws) :
    ∀ w ∈ ws, Text.IsToken w := by
  induction h with
  | nil =>
      intro w hw
      cases hw
  | cons hw _ ih =>
      obtain ⟨ht, hts⟩ := List.forall_mem_cons.1 hts
      have hhead := isToken_of_standsFor hfree ht hw
      exact List.forall_mem_cons.2 ⟨hhead, ih hts⟩

-- ==================================================== sentences in full

/-- Listed tokens expand to themselves with single spaces between. -/
theorem expand_of_lists (h : l.Lists (Text.tokens s)) :
    expand l s = .ok (" ".intercalate (Text.tokens s)) := by
  apply expand_eq_ok_iff.2
  refine ⟨Text.tokens s, ?_, rfl⟩
  exact List.forall₂_same.2 fun t ht => .itself (h t ht)

/-- The tokens of an expansion are what the tokens of the sentence stand
for, and the expansion is nothing but these. -/
theorem forall₂_standsFor_tokens
    (hfree : ∀ w ∈ l.words, Text.BlankFree w.toList)
    (h : expand l s = .ok x) :
    List.Forall₂ (StandsFor l) (Text.tokens s) (Text.tokens x)
      ∧ x = " ".intercalate (Text.tokens x) := by
  obtain ⟨ws, hws, rfl⟩ := expand_eq_ok_iff.1 h
  have htoken := isToken_of_forall₂ hfree
    (fun t => Text.isToken_of_mem_tokens) hws
  rw [Text.tokens_intercalate htoken]
  exact ⟨hws, rfl⟩

/-- A sentence that decodes, or would but for its checksum, has its
tokens on the list. -/
theorem lists_of_decodeWith
    (h : decodeWith H l s = .error .checksum
      ∨ ∃ e, decodeWith H l s = .ok e) : l.Lists (Text.tokens s) := by
  rcases h with hsum | ⟨e, he⟩
  · rw [decodeWith_eq_error_iff, outcome_checksum_iff] at hsum
    exact hsum.2.1
  · exact (decodeWith_eq_ok_iff.1 he).2.1

-- ============================================================ the results

/-- Over a list without blanks in its words, an expansion expands to
itself. It has a token for each token of the sentence, a listed word
that begins with it. So decoding the expansion never misses a word: it
is refused for its number of tokens exactly if the sentence has an
unsupported number of them, and else only its checksum can be wrong. -/
theorem expand_idempotent
    (hfree : ∀ w ∈ l.words, Text.BlankFree w.toList)
    (h : expand l s = .ok x) (H : Hash) :
    let k := (Text.tokens s).length
    expand l x = .ok x
      ∧ (Text.tokens x).length = k
      ∧ List.Forall₂ (fun t w => w ∈ l.words ∧ t.toList <+: w.toList)
          (Text.tokens s) (Text.tokens x)
      ∧ (∀ w p, decodeWith H l x ≠ .error (.wordNotFound w p))
      ∧ (∀ n, decodeWith H l x = .error (.wordCount n)
          ↔ ¬ Supported k ∧ n = k)
      ∧ (Supported k → decodeWith H l x = .error .checksum
          ∨ ∃ e, decodeWith H l x = .ok e) := by
  intro k
  obtain ⟨hstands, hx⟩ := forall₂_standsFor_tokens hfree h
  have hlists : l.Lists (Text.tokens x) := lists_of_forall₂ hstands
  have hlen : k = (Text.tokens x).length := hstands.length_eq
  refine ⟨?_, hlen.symm, ?_, fun w p hw => ?_, fun n => ?_, fun hk => ?_⟩
  · rw [expand_of_lists hlists, ← hx]
  · exact hstands.imp fun t w hw =>
      ⟨mem_of_standsFor hw, begins_of_standsFor hw⟩
  · rw [decodeWith_eq_error_iff, outcome_wordNotFound_iff] at hw
    obtain ⟨-, hfirst⟩ := hw
    exact hfirst.missing (hlists w (List.mem_of_getElem? hfirst.at_place))
  · rw [decodeWith_eq_error_iff, outcome_wordCount_iff, hlen]
  · rw [hlen] at hk
    exact decodeWith_of_lists hk hlists

theorem blankFree_padded (hl : l.words = paddedWords) :
    ∀ w ∈ l.words, Text.BlankFree w.toList := by
  have hsharing : ∀ w ∈ sharingWords, Text.BlankFree w.toList := by decide
  intro w hw
  rw [hl, mem_paddedWords] at hw
  rcases hw with hw | rfl
  · exact hsharing w hw
  · decide

/-- A word that begins another stays as it is while the beginning of the
longer one is completed, and neither changes again; the list holds empty
words besides. -/
theorem expand_idempotent_sharing :
    ∃ l, WordList.ofWords paddedWords = .ok l
      ∧ expand l "\tzool zoo zoo zoo zoo zoo  zoo zoo zoo zoo zoo zoo"
        = .ok "zoology zoo zoo zoo zoo zoo zoo zoo zoo zoo zoo zoo"
      ∧ expand l "zoology zoo zoo zoo zoo zoo zoo zoo zoo zoo zoo zoo"
        = .ok "zoology zoo zoo zoo zoo zoo zoo zoo zoo zoo zoo zoo"
      ∧ (decodeWith sha256 l
            "zoology zoo zoo zoo zoo zoo zoo zoo zoo zoo zoo zoo"
          = .error .checksum
        ∨ ∃ e, decodeWith sha256 l
            "zoology zoo zoo zoo zoo zoo zoo zoo zoo zoo zoo zoo" = .ok e)
      ∧ expand l "zool" = .ok "zoology"
      ∧ decodeWith sha256 l "zoology" = .error (.wordCount 1) := by
  obtain ⟨l, hl⟩ := WordList.exists_ofWords length_paddedWords
  have hwords : l.words = paddedWords := WordList.words_of_ofWords hl
  have htokens : Text.tokens
      "\tzool zoo zoo zoo zoo zoo  zoo zoo zoo zoo zoo zoo"
      = "zool" :: List.replicate 11 "zoo" := by
    decide +kernel
  have hlong : expand l
      "\tzool zoo zoo zoo zoo zoo  zoo zoo zoo zoo zoo zoo"
      = .ok "zoology zoo zoo zoo zoo zoo zoo zoo zoo zoo zoo zoo" := by
    have hzoo : "zoo" ∈ l.words := by
      rw [hwords, mem_paddedWords]
      decide
    apply expand_eq_ok_iff.2
    refine ⟨"zoology" :: List.replicate 11 "zoo", ?_, by decide +kernel⟩
    rw [htokens]
    refine .cons (resolve_eq_ok_iff.1 (resolve_zool hwords)) ?_
    refine List.forall₂_same.2 fun t ht => ?_
    rw [List.eq_of_mem_replicate ht]
    exact .itself hzoo
  have hzool : Text.IsToken "zool" := by decide
  have hshort : expand l "zool" = .ok "zoology" := by
    rw [expand_of_isToken hzool]
    exact resolve_zool hwords
  obtain ⟨hagain, -, -, -, -, hends⟩ :=
    expand_idempotent (blankFree_padded hwords) hlong sha256
  obtain ⟨-, -, -, -, hrefused, -⟩ :=
    expand_idempotent (blankFree_padded hwords) hshort sha256
  refine ⟨l, hl, hlong, hagain, ?_, hshort, ?_⟩
  · apply hends
    rw [htokens]
    exact Or.inl rfl
  · apply (hrefused 1).2
    rw [Text.tokens_of_isToken hzool]
    refine ⟨?_, rfl⟩
    unfold Supported
    simp

/-- Over any list, a sentence that decodes, or would but for its
checksum, expands to its own tokens with single spaces between. The
expansion expands to itself and decodes as the sentence does, with the
checksum byte and without. -/
theorem expand_preserves_decoding
    (h : decodeWith H l s = .error .checksum
      ∨ ∃ e, decodeWith H l s = .ok e) :
    let x := " ".intercalate (Text.tokens s)
    expand l s = .ok x ∧ expand l x = .ok x
      ∧ decodeWith H l x = decodeWith H l s
      ∧ decodeBytesWith H l x = decodeBytesWith H l s := by
  intro x
  have hlists : l.Lists (Text.tokens s) := lists_of_decodeWith h
  -- single spaces leave the tokens, and decoding sees nothing else
  have htokens : Text.tokens x = Text.tokens s :=
    Text.tokens_intercalate_tokens s
  refine ⟨expand_of_lists hlists, ?_, decodeWith_congr htokens,
    decodeBytesWith_congr htokens⟩
  rw [← htokens] at hlists
  rw [expand_of_lists hlists, htokens]

/-- Among words with blanks, empty ones and repeated ones a sentence
keeps its entropy and its checksum byte. -/
theorem expand_preserves_decoding_awkward :
    expand awkwardList "\ta a a  a a a a a a a a d\n"
        = .ok "a a a a a a a a a a a d"
      ∧ expand awkwardList "a a a a a a a a a a a d"
        = .ok "a a a a a a a a a a a d"
      ∧ decodeWith sha256 awkwardList "a a a a a a a a a a a d"
        = .ok (List.replicate 16 0)
      ∧ decodeBytesWith sha256 awkwardList "a a a a a a a a a a a d"
        = decodeBytesWith sha256 awkwardList
            "\ta a a  a a a a a a a a d\n" := by
  have htokens : Text.tokens "\ta a a  a a a a a a a a d\n"
      = Text.tokens "a a a a a a a a a a a d" := by
    decide +kernel
  have hspaced : " ".intercalate (Text.tokens "a a a a a a a a a a a d")
      = "a a a a a a a a a a a d" := by
    decide +kernel
  have hdecoded : decodeWith sha256 awkwardList
      "\ta a a  a a a a a a a a d\n" = .ok (List.replicate 16 0) := by
    rw [decodeWith_congr htokens]
    exact decodeWith_zeros
  obtain ⟨hexpand, hagain, hsame, hbytes⟩ :=
    expand_preserves_decoding (Or.inr ⟨_, hdecoded⟩)
  rw [htokens, hspaced] at hexpand hagain hsame hbytes
  refine ⟨hexpand, hagain, ?_, hbytes⟩
  rw [hsame, hdecoded]

end Mnemonic.Sentence
