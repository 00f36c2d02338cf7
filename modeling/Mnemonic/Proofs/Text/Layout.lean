/-
How tokens stand in a text.

A text is a layout of some words when it holds them in their order, with
at least one blank between any two and any number of blanks at its ends.
The relation says nothing of a scan, so it is the other side for the
scan's correctness: a layout of words that can be tokens has exactly
these tokens (`tokens_eq_of_isLayout`), and every text is a layout of
its own tokens (`isLayout_tokens`).

The second statement rests on what the scan has in hand (`InHand`): at
every point the text read so far, from its end, is the open token
followed either by nothing, no token being closed then, or by a blank
and a layout of the closed tokens.
-/
import Mnemonic.Text.Token

namespace Mnemonic.Text

-- ============================================================ layouts

/-- A text with some words in it, in their order, and blanks around and
between them. -/
inductive Layout : List (List Char) → List Char → Prop where
  /-- Blanks alone hold no word. -/
  | blanks {b : List Char} : AllBlank b → Layout [] b
  /-- The last word, with the blanks around it. -/
  | last {a w b : List Char} :
      AllBlank a → AllBlank b → Layout [w] (a ++ w ++ b)
  /-- A word with the blanks in front of it and the first of those
  behind it. -/
  | next {a w s : List Char} {c : Char} {ws : List (List Char)} :
      AllBlank a → isBlank c = true → Layout ws s →
      Layout (w :: ws) (a ++ w ++ c :: s)

/-- A text that holds some words in their order, with at least one blank
between any two of them and any blanks, or none, around. -/
def IsLayout (ws : List String) (s : String) : Prop :=
  Layout (ws.map String.toList) s.toList

/-- A word that can be a token: not empty, and without a blank. -/
structure IsToken (w : String) : Prop where
  ne_empty : w ≠ ""
  blankFree : BlankFree w.toList

instance (w : String) : Decidable (IsToken w) :=
  decidable_of_iff (w ≠ "" ∧ BlankFree w.toList)
    ⟨fun h => ⟨h.1, h.2⟩, fun h => ⟨h.ne_empty, h.blankFree⟩⟩

/-- What is left of a word behind a cut can be a token if the word
can. -/
theorem IsToken.of_begins {a w : String} (hw : IsToken w) (ha : a ≠ "")
    (h : a.toList <+: w.toList) : IsToken a :=
  ⟨ha, fun c hc => hw.blankFree c (h.subset hc)⟩

theorem allBlank_nil : AllBlank [] := by
  intro c hc
  cases hc

theorem allBlank_cons {c : Char} {s : List Char} :
    AllBlank (c :: s) ↔ isBlank c = true ∧ AllBlank s := by
  unfold AllBlank
  rw [List.forall_mem_cons]

-- =============================================== the tokens of a layout

/-- Blanks in front of a text are not seen. -/
theorem tokensOf_allBlank_append {a : List Char} (ha : AllBlank a)
    (s : List Char) : tokensOf (a ++ s) = tokensOf s := by
  induction a with
  | nil => rfl
  | cons c a ih =>
      obtain ⟨hc, ha⟩ := allBlank_cons.1 ha
      rw [List.cons_append, tokensOf_blank _ hc]
      exact ih ha

theorem tokensOf_append_allBlank {b : List Char} (hb : AllBlank b)
    (s : List Char) : tokensOf (s ++ b) = tokensOf s := by
  cases b with
  | nil => rw [List.append_nil]
  | cons c b =>
      obtain ⟨hc, hb⟩ := allBlank_cons.1 hb
      rw [tokensOf_append_blank s b hc, tokensOf_of_allBlank hb,
        List.append_nil]

/-- The tokens of a layout are its words. -/
theorem tokensOf_eq_of_layout {ws : List (List Char)} {s : List Char}
    (h : Layout ws s) (hw : ∀ w ∈ ws, w ≠ [] ∧ BlankFree w) :
    tokensOf s = ws := by
  induction h with
  | blanks hb => exact tokensOf_of_allBlank hb
  | last ha hb =>
      obtain ⟨hne, hfree⟩ := hw _ List.mem_cons_self
      rw [tokensOf_append_allBlank hb, tokensOf_allBlank_append ha,
        tokensOf_of_blankFree hne hfree]
  | next ha hc _ ih =>
      obtain ⟨⟨hne, hfree⟩, hws⟩ := List.forall_mem_cons.1 hw
      rw [List.append_assoc, tokensOf_allBlank_append ha,
        tokensOf_append_blank _ _ hc, tokensOf_of_blankFree hne hfree,
        ih hws]
      rfl

/-- A text that lays out some tokens has these tokens. -/
theorem tokens_eq_of_isLayout {ws : List String} {s : String}
    (h : IsLayout ws s) (hw : ∀ w ∈ ws, IsToken w) : tokens s = ws := by
  have hof : tokensOf s.toList = ws.map String.toList := by
    apply tokensOf_eq_of_layout h
    intro w hmem
    obtain ⟨t, ht, rfl⟩ := List.mem_map.1 hmem
    refine ⟨?_, (hw t ht).blankFree⟩
    intro hnil
    exact (hw t ht).ne_empty (String.toList_eq_nil_iff.1 hnil)
  unfold tokens
  rw [hof, List.map_map]
  exact List.map_id'' (fun t => String.ofList_toList) ws

/-- What a text has as a token can be one. -/
theorem isToken_of_mem_tokens {s w : String} (h : w ∈ tokens s) :
    IsToken w := by
  obtain ⟨t, ht, rfl⟩ := List.mem_map.1 h
  obtain ⟨hne, hfree⟩ := of_mem_tokensOf t ht
  refine ⟨?_, ?_⟩
  · intro hempty
    rw [← String.toList_eq_nil_iff, String.toList_ofList] at hempty
    exact hne hempty
  · rw [String.toList_ofList]
    exact hfree

-- =========================================== every text is a layout

/-- One more blank in front keeps a layout. -/
theorem Layout.cons_blank {c : Char} {ws : List (List Char)}
    {s : List Char} (hc : isBlank c = true) (h : Layout ws s) :
    Layout ws (c :: s) := by
  cases h with
  | blanks hb => exact .blanks (allBlank_cons.2 ⟨hc, hb⟩)
  | last ha hb => exact .last (allBlank_cons.2 ⟨hc, ha⟩) hb
  | next ha hd hrest => exact .next (allBlank_cons.2 ⟨hc, ha⟩) hd hrest

/-- A word alone is a layout of itself. -/
theorem layout_singleton (w : List Char) : Layout [w] w := by
  have h : Layout [w] ([] ++ w ++ []) := .last allBlank_nil allBlank_nil
  rwa [List.append_nil] at h

/-- What a scan has in hand of the text it has read: the open token and,
unless nothing is closed yet, a blank and a layout of the closed tokens
behind it. -/
def InHand (s : List Char) (st : List Char × List (List Char)) : Prop :=
  (st.2 = [] ∧ s = st.1)
    ∨ ∃ c r, isBlank c = true ∧ Layout st.2 r ∧ s = st.1 ++ c :: r

/-- Closing the open token leaves a layout. -/
theorem layout_close {s : List Char} {st : List Char × List (List Char)}
    (h : InHand s st) : Layout (close st.1 st.2) s := by
  obtain ⟨w, ts⟩ := st
  cases w with
  | nil =>
      show Layout ts s
      rcases h with ⟨hts, hs⟩ | ⟨c, r, hc, hlay, hs⟩
      · obtain rfl : ts = [] := hts
        obtain rfl : s = [] := hs
        exact .blanks allBlank_nil
      · obtain rfl : s = c :: r := hs
        exact hlay.cons_blank hc
  | cons x w =>
      show Layout ((x :: w) :: ts) s
      rcases h with ⟨hts, hs⟩ | ⟨c, r, hc, hlay, hs⟩
      · obtain rfl : ts = [] := hts
        obtain rfl : s = x :: w := hs
        exact layout_singleton _
      · obtain rfl : s = x :: w ++ c :: r := hs
        exact .next allBlank_nil hc hlay

/-- The scan of a text has the text in hand. -/
theorem inHand_scan (s : List Char) : InHand s (scan s) := by
  induction s with
  | nil => exact Or.inl ⟨rfl, rfl⟩
  | cons x s ih =>
      cases hx : isBlank x with
      | false =>
          -- the open token grows
          rw [scan_letter s hx]
          rcases ih with ⟨hnone, hs⟩ | ⟨c, r, hc, hlay, hs⟩
          · exact Or.inl ⟨hnone, congrArg (x :: ·) hs⟩
          · exact Or.inr ⟨c, r, hc, hlay, congrArg (x :: ·) hs⟩
      | true =>
          -- the open token is closed, and none is open
          rw [scan_blank s hx]
          exact Or.inr ⟨x, s, hx, layout_close ih, rfl⟩

/-- Every text is a layout of its tokens. -/
theorem isLayout_tokens (s : String) : IsLayout (tokens s) s := by
  have hid : String.toList ∘ String.ofList = id :=
    funext fun _ => String.toList_ofList
  unfold IsLayout tokens
  rw [List.map_map, hid, List.map_id]
  exact layout_close (inHand_scan s.toList)

/-- Single spaces are a layout. -/
theorem layout_spacedOf (ws : List (List Char)) :
    Layout ws (spacedOf ws) := by
  unfold spacedOf
  induction ws with
  | nil => exact .blanks allBlank_nil
  | cons w ws ih =>
      cases ws with
      | nil =>
          rw [List.intercalate_singleton]
          exact layout_singleton w
      | cons v vs =>
          have hspace : isBlank ' ' = true := by decide
          rw [List.intercalate_cons_cons, List.append_assoc]
          exact .next allBlank_nil hspace ih

/-- Single spaces make a layout, of any words. -/
theorem isLayout_spaced (ws : List String) : IsLayout ws (spaced ws) := by
  unfold IsLayout spaced
  rw [String.toList_ofList]
  exact layout_spacedOf _

/-- Words that can be tokens come apart again at the single spaces that
join them. -/
theorem tokens_intercalate {ws : List String} (h : ∀ w ∈ ws, IsToken w) :
    tokens (" ".intercalate ws) = ws := by
  rw [← spaced_eq_intercalate]
  exact tokens_eq_of_isLayout (isLayout_spaced ws) h

/-- Putting the tokens of a text together again changes none of them. -/
theorem tokens_intercalate_tokens (s : String) :
    tokens (" ".intercalate (tokens s)) = tokens s :=
  tokens_intercalate fun _ => isToken_of_mem_tokens

/-- A word that can be a token is the one token of its text. -/
theorem tokens_of_isToken {w : String} (h : IsToken w) : tokens w = [w] :=
  tokens_eq_of_isLayout (layout_singleton w.toList) fun v hv => by
    rw [List.mem_singleton.1 hv]
    exact h

end Mnemonic.Text
