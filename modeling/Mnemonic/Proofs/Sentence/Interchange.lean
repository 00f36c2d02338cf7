/-
Lists that can stand in for one another.

A list is asked for the words at its positions and for the positions of
its words, and for nothing else. So two lists that hold the same words
and agree on where each is found agree on all that is asked of them,
down to decoding and expanding sentences (`AnswersAlike.of_index?_eq`).

The list of a table and the list of its words hold the same words, and
are filled by opposite rules: the one answers the last position of a
word, the other the first. These are the same for every word exactly if
no word is repeated (`nodup_iff_lastPosition?_eq`), and only then do the
two indices have the same entries.
-/
import Mnemonic.Proofs.Sentence.Outcome
import Mnemonic.Proofs.WordList.English
import Mnemonic.Proofs.WordList.Reading
import Mnemonic.Sentence.Abbreviation

namespace Mnemonic

namespace WordList

-- ============================================== last and first positions

variable {l m : WordList} {ws : List String} {w : String}

/-- A position of a word is not behind its last one. -/
theorem exists_lastPosition?_ge {p : Nat} (h : ws[p]? = some w) :
    ∃ q, Index.lastPosition? w ws = some q ∧ p ≤ q := by
  induction ws generalizing p with
  | nil => simp at h
  | cons x xs ih =>
      unfold Index.lastPosition?
      cases p with
      | zero =>
          obtain rfl : x = w := by simpa using h
          cases Index.lastPosition? x xs with
          | none => exact ⟨0, by simp, by omega⟩
          | some q => exact ⟨q + 1, rfl, by omega⟩
      | succ p =>
          obtain ⟨q, hq, hle⟩ := ih (by simpa using h)
          exact ⟨q + 1, by simp [hq], by omega⟩

/-- If no word is repeated, its last position is its first. -/
theorem lastPosition?_of_nodup (h : ws.Nodup) (w : String) :
    Index.lastPosition? w ws = ws.idxOf? w := by
  cases hp : ws.idxOf? w with
  | none =>
      rw [Index.lastPosition?_eq_none_iff, ← List.idxOf?_eq_none_iff]
      exact hp
  | some p =>
      have hat := Index.getElem?_of_idxOf? hp
      obtain ⟨q, hq, -⟩ := exists_lastPosition?_ge hat
      have hqat := Index.getElem?_of_lastPosition? hq
      obtain ⟨hlt, -⟩ := List.getElem?_eq_some_iff.1 hat
      have hpq : p = q :=
        (List.getElem?_inj hlt h).1 (hat.trans hqat.symm)
      rw [hq, hpq]

/-- The last position of each word is its first one exactly if there is
no other. -/
theorem nodup_iff_lastPosition?_eq :
    ws.Nodup ↔ ∀ w, Index.lastPosition? w ws = ws.idxOf? w := by
  refine ⟨lastPosition?_of_nodup, fun h => ?_⟩
  rw [List.nodup_iff_getElem?_ne_getElem?]
  intro i j hij hj heq
  have hw : ws[j]? = some ws[j] := List.getElem?_eq_getElem hj
  obtain ⟨q, hq, hjq⟩ := exists_lastPosition?_ge hw
  -- the last position is the first one, so there is none in between
  have hfirst := idxOf?_eq_some_iff_standsFirst.1 ((h _).symm.trans hq)
  have hqi : q ≤ i := hfirst.le (heq.trans hw)
  omega

-- ======================================================= equal indices

/-- Two indices have the same entries if every word is found alike. -/
theorem toList_index_eq_iff :
    l.index.toList = m.index.toList ↔ ∀ w, l.index? w = m.index? w := by
  rw [← Std.TreeMap.equiv_iff_toList_eq]
  refine ⟨fun h w => h.getElem?_eq, fun h => ?_⟩
  exact Std.TreeMap.Equiv.of_forall_constGet?_eq h

/-- The position that a list made from a table answers is the word's
last one, not only its low sixteen bits. -/
theorem map_toNat_index?_ofTable (h : ws.length = 2048) (w : String) :
    ((ofTable ws h).index? w).map UInt16.toNat
      = Index.lastPosition? w ws := by
  rw [index?_ofTable]
  apply map_toNat_map_ofPosition
  intro p hp
  have hat := Index.getElem?_of_lastPosition? hp
  obtain ⟨hlt, -⟩ := List.getElem?_eq_some_iff.1 hat
  omega

/-- The list of a table and the list of its words find every word alike
exactly if none is repeated. -/
theorem index?_ofTable_eq_iff (h : ws.length = 2048)
    (hl : ofWords ws = .ok l) :
    (∀ w, (ofTable ws h).index? w = l.index? w) ↔ ws.Nodup := by
  rw [nodup_iff_lastPosition?_eq]
  refine ⟨fun heq w => ?_, fun heq w => ?_⟩
  · rw [← map_toNat_index?_ofTable h, ← map_toNat_index? hl, heq w]
  · rw [index?_ofTable, index?_of_ofWords hl, heq w]

/-- Positions are the same over lists with the same look-up. -/
theorem indicesFrom_congr (h : ∀ w, l.index? w = m.index? w) (p : Nat)
    (ws : List String) : l.indicesFrom p ws = m.indicesFrom p ws := by
  induction ws generalizing p with
  | nil => rfl
  | cons w ws ih => simp only [indicesFrom, h w, ih]

end WordList

namespace Sentence

-- ================================================ sentences over a list

variable {H : Hash} {l m : WordList} {s t : String}

/-- Decoding sees of a list only where words are found. -/
theorem payloadWith_congr_list (h : ∀ w, l.index? w = m.index? w) :
    payloadWith H l s = payloadWith H m s := by
  have hindices (ws : List String) : l.indices ws = m.indices ws :=
    WordList.indicesFrom_congr h 0 ws
  simp only [payloadWith, hindices]

/-- Abbreviations see of a list only its words. -/
theorem resolve_congr_list (h : l.words = m.words) :
    resolve l t = resolve m t := by
  have hmatching : matching l t = matching m t := by
    unfold matching
    rw [h]
  by_cases ht : t ∈ l.words
  · rw [resolve_of_mem ht]
    rw [h] at ht
    exact (resolve_of_mem ht).symm
  · rw [resolve_of_not_mem ht]
    rw [h] at ht
    rw [resolve_of_not_mem ht]
    unfold unabbreviate
    rw [hmatching]

theorem resolveAll_congr_list (h : l.words = m.words) (ts : List String) :
    resolveAll l ts = resolveAll m ts := by
  induction ts with
  | nil => rfl
  | cons t ts ih => simp only [resolveAll, resolve_congr_list h, ih]

end Sentence

-- ==================================================== the same answers

/-- Two lists answer alike whatever they are asked. -/
structure AnswersAlike (l m : WordList) : Prop where
  index?_eq : ∀ w, l.index? w = m.index? w
  word?_eq : ∀ i, l.word? i = m.word? i
  contains_eq : ∀ w, l.contains w = m.contains w
  indices_eq : ∀ ws, l.indices ws = m.indices ws
  decodeWith_eq : ∀ H s,
    Sentence.decodeWith H l s = Sentence.decodeWith H m s
  decodeBytesWith_eq : ∀ H s,
    Sentence.decodeBytesWith H l s = Sentence.decodeBytesWith H m s
  validWith_eq : ∀ H s,
    Sentence.validWith H l s = Sentence.validWith H m s
  expand_eq : ∀ s, Sentence.expand l s = Sentence.expand m s

/-- Lists that hold the same words and find them alike answer alike. -/
theorem AnswersAlike.of_index?_eq {l m : WordList}
    (hwords : l.words = m.words) (h : ∀ w, l.index? w = m.index? w) :
    AnswersAlike l m := by
  refine
    { index?_eq := h
      word?_eq := fun i => ?_
      contains_eq := fun w => ?_
      indices_eq := fun ws => WordList.indicesFrom_congr h 0 ws
      decodeWith_eq := fun H s => ?_
      decodeBytesWith_eq := fun H s => ?_
      validWith_eq := fun H s => ?_
      expand_eq := fun s => ?_ }
  · unfold WordList.word?
    rw [hwords]
  · rw [Bool.eq_iff_iff, WordList.contains_iff_mem,
      WordList.contains_iff_mem, hwords]
  · -- the three decoders ask for positions only
    unfold Sentence.decodeWith
    rw [Sentence.payloadWith_congr_list h]
  · unfold Sentence.decodeBytesWith
    rw [Sentence.payloadWith_congr_list h]
  · unfold Sentence.validWith
    rw [Sentence.payloadWith_congr_list h]
  · unfold Sentence.expand
    rw [Sentence.resolveAll_congr_list hwords]

namespace WordList

variable {ws : List String}

/-- The index of a table has the same entries as that of the list of its
words exactly if no word is repeated. If moreover all words can be
entries, the two lists answer alike whatever they are asked, and the
words one to a line, the lines ending in either way, are read as the
second of them. -/
theorem constructors_agree (h : ws.length = 2048) :
    ∃ l, ofWords ws = .ok l
      ∧ ((ofTable ws h).index.toList = l.index.toList ↔ ws.Nodup)
      ∧ (ws.Nodup → (∀ w ∈ ws, Text.IsEntry w) →
          AnswersAlike (ofTable ws h) l
            ∧ ∀ text, Text.IsOnePerLine ws text →
                ofText text = .ok l) := by
  obtain ⟨l, hl⟩ := exists_ofWords h
  have hfound := index?_ofTable_eq_iff h hl
  refine ⟨l, hl, toList_index_eq_iff.trans hfound, ?_⟩
  intro hnodup hws
  refine ⟨?_, fun text htext => ?_⟩
  · have hwords : (ofTable ws h).words = l.words :=
      (words_of_ofWords hl).symm
    exact .of_index?_eq hwords (hfound.2 hnodup)
  · rw [ofText_of_isOnePerLine htext hws]
    exact hl

theorem not_nodup_repeatingWords : ¬ repeatingWords.Nodup := by
  unfold repeatingWords
  rw [List.nodup_cons, List.nodup_cons, List.nodup_replicate]
  omega

/-- The English list can be made in any of the ways; a table with a
repeated word has another index than the list of its words. -/
theorem constructors_agree_english :
    (∃ l, ofWords englishWords = .ok l
        ∧ AnswersAlike english l
        ∧ ofText ("\n".intercalate englishWords) = .ok l
        ∧ ofText ("\r\n".intercalate englishWords) = .ok l)
      ∧ ∃ l, ofWords repeatingWords = .ok l
        ∧ (ofTable repeatingWords length_repeatingWords).index.toList
          ≠ l.index.toList := by
  refine ⟨?_, ?_⟩
  · have hentry : ∀ w ∈ englishWords, Text.IsEntry w := fun w hw =>
      (englishWords_lowerCase w hw).isToken.isEntry
    obtain ⟨l, hl, -, hsame⟩ := constructors_agree length_englishWords
    obtain ⟨halike, hread⟩ := hsame nodup_englishWords hentry
    exact ⟨l, hl, halike,
      hread _ (Text.isOnePerLine_intercalate _ (Or.inl rfl)),
      hread _ (Text.isOnePerLine_intercalate _ (Or.inr rfl))⟩
  · obtain ⟨l, hl, hsame, -⟩ := constructors_agree length_repeatingWords
    exact ⟨l, hl, fun heq => not_nodup_repeatingWords (hsame.1 heq)⟩

end WordList

end Mnemonic
