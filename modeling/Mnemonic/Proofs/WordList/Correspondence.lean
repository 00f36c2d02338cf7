/-
A list made from words answers as the words themselves would.

The list holds the words twice, in order and as an index that was filled
word by word, an entry staying once it is there. What ties the two
together is one equation: the sixteen-bit position that a look-up
answers, read as a number, is the first position of the word
(`map_toNat_index?`). Nothing is cut off on the way, since there are
fewer words than sixteen bits can count.

`Represents` collects what follows for every look-up, of one word or of
a sequence, wherever words are repeated or empty. A position that is
looked up through its word comes back as the word's first position, so
it can move forward in the list but not back, and it stays exactly if
the word does not stand at an earlier one (`recovers_iff`).
-/
import Mnemonic.Proofs.WordList.Lookup

namespace Mnemonic.WordList

-- ==================================================== first positions

/-- A word stands at a position and at no earlier one. -/
structure StandsFirst (ws : List String) (w : String) (p : Nat) : Prop where
  at_position : ws[p]? = some w
  not_before : ∀ q < p, ws[q]? ≠ some w

variable {l : WordList} {ws vs : List String} {w : String}

/-- The first position of a word is the one before which it does not
stand. -/
theorem idxOf?_eq_some_iff_standsFirst {p : Nat} :
    ws.idxOf? w = some p ↔ StandsFirst ws w p := by
  rw [List.idxOf?_eq_some_iff]
  refine ⟨fun h => ?_, fun h => ?_⟩
  · obtain ⟨hlt, hat, hbefore⟩ := h
    refine ⟨?_, ?_⟩
    · rw [List.getElem?_eq_getElem hlt, hat]
    · intro q hq hw
      obtain ⟨hqlt, hqw⟩ := List.getElem?_eq_some_iff.1 hw
      exact hbefore q hq hqw
  · obtain ⟨hat, hbefore⟩ := h
    obtain ⟨hlt, hw⟩ := List.getElem?_eq_some_iff.1 hat
    refine ⟨hlt, hw, ?_⟩
    intro q hq hqw
    have hqlt : q < ws.length := Nat.lt_trans hq hlt
    exact hbefore q hq (List.getElem?_eq_some_iff.2 ⟨hqlt, hqw⟩)

/-- No word stands first behind another position of it. -/
theorem StandsFirst.le {p q : Nat} (h : StandsFirst ws w p)
    (hq : ws[q]? = some w) : p ≤ q := by
  by_contra hlt
  exact h.not_before q (by omega) hq

-- ================================================ what the list holds

theorem length_of_ofWords (hl : ofWords ws = .ok l) : ws.length = 2048 := by
  rw [← words_of_ofWords hl]
  exact l.length_words

theorem exists_ofWords (h : ws.length = 2048) : ∃ l, ofWords ws = .ok l := by
  unfold ofWords
  rw [dif_pos h]
  exact ⟨_, rfl⟩

/-- Fewer or more words are refused with their number. -/
theorem ofWords_eq_error_iff {e : Error} :
    ofWords ws = .error e
      ↔ ws.length ≠ 2048 ∧ e = .listLength ws.length := by
  unfold ofWords
  refine ⟨fun h => ?_, fun h => ?_⟩
  · split at h
    · cases h
    · next hlen =>
        cases h
        exact ⟨hlen, rfl⟩
  · obtain ⟨hlen, rfl⟩ := h
    rw [dif_neg hlen]

/-- Sixteen bits keep a position that fits them. -/
theorem map_toNat_map_ofPosition {place : Option Nat}
    (h : ∀ p, place = some p → p < 65536) :
    (place.map Index.ofPosition).map UInt16.toNat = place := by
  cases place with
  | none => rfl
  | some p => simp [Index.toNat_ofPosition (h p rfl)]

/-- The position that a look-up answers is the word's first one, not
only its low sixteen bits. -/
theorem map_toNat_index? (hl : ofWords ws = .ok l) (w : String) :
    (l.index? w).map UInt16.toNat = ws.idxOf? w := by
  rw [index?_of_ofWords hl]
  apply map_toNat_map_ofPosition
  intro p hp
  obtain ⟨hlt, -⟩ := List.idxOf?_eq_some_iff.1 hp
  have hlen := length_of_ofWords hl
  omega

/-- A look-up in a list made from words answers with the first position
of the word. -/
theorem index?_eq_some_iff_standsFirst (hl : ofWords ws = .ok l)
    {i : UInt16} :
    l.index? w = some i ↔ StandsFirst ws w i.toNat := by
  rw [← idxOf?_eq_some_iff_standsFirst, ← map_toNat_index? hl]
  refine ⟨fun h => ?_, fun h => ?_⟩
  · rw [h]
    rfl
  · obtain ⟨j, hj, hij⟩ := Option.map_eq_some_iff.1 h
    rw [hj, UInt16.toNat_inj.1 hij]

theorem getElem?_of_ofWords (hl : ofWords ws = .ok l) (g : Fin 2048) :
    ws[g.val]? = some (l.word g) := by
  rw [← words_of_ofWords hl]
  exact word?_word g

/-- In a list made from words a position finds its way back exactly if
its word does not stand at an earlier one. -/
theorem recovers_iff (hl : ofWords ws = .ok l) (g : Fin 2048) :
    l.Recovers g ↔ ∀ j < g, l.word j ≠ l.word g := by
  have hlt : g.val < 65536 := by omega
  unfold Recovers
  rw [index?_eq_some_iff_standsFirst hl, Index.toNat_ofPosition hlt]
  refine ⟨fun h => ?_, fun h => ?_⟩
  · intro j hj heq
    apply h.not_before j.val hj
    rw [getElem?_of_ofWords hl, heq]
  · refine ⟨getElem?_of_ofWords hl g, ?_⟩
    intro q hq hqw
    have hlist : q < 2048 := by omega
    rw [getElem?_of_ofWords hl ⟨q, hlist⟩] at hqw
    exact h ⟨q, hlist⟩ hq (Option.some.inj hqw)

/-- A position that is looked up through its word comes back as it is or
as an earlier one, the latter where the word was there before. -/
theorem exists_index?_le (hl : ofWords ws = .ok l) {p : Nat}
    (hp : ws[p]? = some w) :
    ∃ i, l.index? w = some i ∧ i.toNat ≤ p
      ∧ (i.toNat = p ↔ ∀ q < p, ws[q]? ≠ some w) := by
  have hmem : w ∈ l.words := by
    rw [words_of_ofWords hl]
    exact List.mem_of_getElem? hp
  obtain ⟨i, hi⟩ := exists_index? hmem
  have hfirst := (index?_eq_some_iff_standsFirst hl).1 hi
  refine ⟨i, hi, hfirst.le hp, ?_⟩
  refine ⟨fun h => ?_, fun h => ?_⟩
  · rw [← h]
    exact hfirst.not_before
  · exact Nat.le_antisymm (hfirst.le hp) (StandsFirst.le ⟨hp, h⟩
      hfirst.at_position)

-- ============================================== sequences of words

/-- The words at the positions found are those that were looked up. -/
theorem map_word?_positions (h : l.Lists vs) :
    (l.positions vs).map (fun i => l.word? i.toNat) = vs.map some := by
  induction vs with
  | nil => rfl
  | cons v vs ih =>
      obtain ⟨hv, hvs⟩ := lists_cons.1 h
      obtain ⟨i, hi⟩ := exists_index? hv
      rw [positions_cons hi, List.map_cons, List.map_cons,
        word?_of_index? hi, ih hvs]

-- ================================================ the representation

/-- What a list answers for the words it stands for. -/
structure Represents (l : WordList) (ws : List String) : Prop where
  /-- A position holds the word that stands there, and past the last
  word there is none. -/
  word?_eq : ∀ p, l.word? p = ws[p]?
  /-- A look-up answers the first position of the word. -/
  index?_eq_some : ∀ w i, l.index? w = some i ↔ StandsFirst ws w i.toNat
  index?_eq_none : ∀ w, l.index? w = none ↔ w ∉ ws
  contains_iff : ∀ w, l.contains w = true ↔ ∃ i, l.index? w = some i
  word?_of_found : ∀ w i, l.index? w = some i →
    i.toNat < 2048 ∧ l.word? i.toNat = some w
  /-- A position is found through its word, or an earlier one is, where
  the word stands as well. -/
  index?_word : ∀ p < 2048, ∃ w i, l.word? p = some w
    ∧ l.index? w = some i ∧ i.toNat ≤ p
    ∧ (i.toNat = p ↔ ∀ q < p, l.word? q ≠ some w)
  indices_isOk : ∀ vs, (∃ is, l.indices vs = .ok is) ↔ ∀ v ∈ vs, v ∈ ws
  /-- The positions found read back as the words. -/
  word?_of_indices : ∀ vs is, l.indices vs = .ok is →
    is.length = vs.length ∧ is.map (fun i => l.word? i.toNat) = vs.map some
  /-- Of the words that are not there the first is reported, with its
  place. -/
  indices_eq_error : ∀ vs e, l.indices vs = .error e
    ↔ ∃ v p, vs[p]? = some v ∧ v ∉ ws ∧ (∀ u ∈ vs.take p, u ∈ ws)
      ∧ e = .wordNotFound v p

/-- A list answers for the words that it is made from. -/
theorem represents_of_ofWords (hl : ofWords ws = .ok l) :
    Represents l ws := by
  have hwords : l.words = ws := words_of_ofWords hl
  subst hwords
  refine
    { word?_eq := fun p => rfl
      index?_eq_some := fun w i => index?_eq_some_iff_standsFirst hl
      index?_eq_none := fun w => index?_eq_none_iff
      contains_iff := fun w => ?_
      word?_of_found := fun w i hi => ⟨index?_lt hi, word?_of_index? hi⟩
      index?_word := fun p hp => ?_
      indices_isOk := fun vs => ?_
      word?_of_indices := fun vs is his => ?_
      indices_eq_error := fun vs e => ?_ }
  · rw [contains_iff_mem, ← isSome_index?_iff_mem,
      Option.isSome_iff_exists]
  · have hw : l.words[p]? = some (l.word ⟨p, hp⟩) := word?_word ⟨p, hp⟩
    obtain ⟨i, hi, hle, hiff⟩ := exists_index?_le hl hw
    exact ⟨_, i, hw, hi, hle, hiff⟩
  · refine ⟨fun h => ?_, fun h => ?_⟩
    · obtain ⟨is, his⟩ := h
      exact (indices_eq_ok_iff.1 his).1
    · exact ⟨_, indices_of_lists h⟩
  · obtain ⟨hlists, rfl⟩ := indices_eq_ok_iff.1 his
    exact ⟨length_positions hlists, map_word?_positions hlists⟩
  · rw [indices_eq_error_iff]
    refine ⟨fun h => ?_, fun h => ?_⟩
    · obtain ⟨v, p, hv, he⟩ := h
      exact ⟨v, p, hv.at_place, hv.missing, hv.listed_before, he⟩
    · obtain ⟨v, p, hat, hmiss, hbefore, he⟩ := h
      exact ⟨v, p, ⟨hat, hmiss, hbefore⟩, he⟩

/-- Words make a list exactly if there are 2048 of them, and the list
represents them, its sixteen-bit positions being the positions
themselves. -/
theorem ofWords_represents (ws : List String) :
    ((∃ l, ofWords ws = .ok l) ↔ ws.length = 2048)
      ∧ (∀ e, ofWords ws = .error e
          ↔ ws.length ≠ 2048 ∧ e = .listLength ws.length)
      ∧ (ws.length = 2048 →
          ∀ p < ws.length, (Index.ofPosition p).toNat = p)
      ∧ ∀ l, ofWords ws = .ok l →
          Represents l ws
            ∧ ∀ w, (l.index? w).map UInt16.toNat = ws.idxOf? w := by
  refine ⟨⟨fun h => ?_, exists_ofWords⟩, fun e => ofWords_eq_error_iff,
    fun hlen p hp => ?_, fun l hl => ?_⟩
  · obtain ⟨l, hl⟩ := h
    exact length_of_ofWords hl
  · exact Index.toNat_ofPosition (by omega)
  · exact ⟨represents_of_ofWords hl, map_toNat_index? hl⟩

/-- An empty word, a word that stands once and a word that is
repeated. -/
def repeatingWords : List String :=
  "" :: "b" :: List.replicate 2046 "a"

theorem length_repeatingWords : repeatingWords.length = 2048 := by
  show (List.replicate 2046 "a").length + 2 = 2048
  rw [List.length_replicate]

theorem mem_repeatingWords :
    w ∈ repeatingWords ↔ w = "" ∨ w = "b" ∨ w = "a" := by
  have hpos : 2046 ≠ 0 := by omega
  unfold repeatingWords
  rw [List.mem_cons, List.mem_cons, List.mem_replicate,
    and_iff_right hpos]

/-- The repeated word is found at its first position, from its last one
as well, and the empty word is a word like any other. -/
theorem ofWords_represents_repeating :
    (∃ l, ofWords repeatingWords = .ok l
        ∧ l.index? "a" = some 2 ∧ l.word? 2047 = some "a"
        ∧ l.contains "" = true
        ∧ l.indices ["b", "", "c", "d"] = .error (.wordNotFound "c" 2))
      ∧ ofWords ["b", "a"] = .error (.listLength 2) := by
  obtain ⟨l, hl⟩ :=
    (ofWords_represents repeatingWords).1.2 length_repeatingWords
  obtain ⟨hrep, -⟩ := (ofWords_represents repeatingWords).2.2.2 l hl
  refine ⟨⟨l, hl, ?_, ?_, ?_, ?_⟩, ?_⟩
  · apply (hrep.index?_eq_some "a" 2).2
    refine ⟨rfl, ?_⟩
    intro q hq
    have hsmall : q = 0 ∨ q = 1 := by
      have htwo : q < 2 := hq
      omega
    rcases hsmall with rfl | rfl
    · show some "" ≠ some "a"
      simp
    · show some "b" ≠ some "a"
      simp
  · rw [hrep.word?_eq]
    unfold repeatingWords
    rw [List.getElem?_cons_succ, List.getElem?_cons_succ]
    exact List.getElem?_replicate_of_lt (by omega)
  · apply (hrep.contains_iff "").2
    exact ⟨0, (hrep.index?_eq_some "" 0).2 ⟨rfl, fun q hq => nomatch hq⟩⟩
  · apply (hrep.indices_eq_error _ _).2
    refine ⟨"c", 2, rfl, ?_, ?_, rfl⟩
    · rw [mem_repeatingWords]
      simp
    · intro u hu
      have htake : u = "b" ∨ u = "" := by simpa using hu
      rw [mem_repeatingWords]
      rcases htake with rfl | rfl
      · exact Or.inr (Or.inl rfl)
      · exact Or.inl rfl
  · apply ((ofWords_represents ["b", "a"]).2.1 _).2
    simp

end Mnemonic.WordList
