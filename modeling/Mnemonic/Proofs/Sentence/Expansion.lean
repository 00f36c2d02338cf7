/-
What every token of a sentence expands to, and what is reported when one
does not.

`Resolution` lists the five ends that resolving one token can have, each
with its condition on the token and on the positions of the list whose
words the token begins. Every token meets one of the conditions and ends
as it says (`resolve_eq_iff`). A token that is a word of the list stands
for itself, whatever other words it begins; of the others the length is
looked at before the list is, so that a token of three characters is too
short even if it begins one word only.

Positions count, not words: a token that begins a word which the list
repeats begins it at two positions.

A sentence is resolved from the left (`resolveAll_eq_ok_iff`,
`resolveAll_eq_error_iff`), so what is reported is what resolving the
first token ends in that resolves to nothing.
-/
import Mathlib.Data.List.Forall2
import Mathlib.Data.List.Sort
import Mathlib.Logic.ExistsUnique
import Mnemonic.Proofs.WordList.Correspondence
import Mnemonic.Sentence.Abbreviation

namespace Mnemonic.Sentence

-- =========================================================== beginnings

/-- A token begins the word at a position. -/
def BeginsAt (l : WordList) (t : String) (p : Fin 2048) : Prop :=
  t.toList <+: (l.word p).toList

/-- The positions whose words a token begins, in order. -/
def beginnings (l : WordList) (t : String) : List (Fin 2048) :=
  (List.finRange 2048).filter fun p => begins t (l.word p)

variable {l : WordList} {t w : String} {p q : Fin 2048}

/-- A token is no longer than a word that it begins. -/
theorem length_le_of_begins (h : t.toList <+: w.toList) :
    t.length ≤ w.length := by
  rw [← String.length_toList, ← String.length_toList]
  exact h.length_le

theorem mem_beginnings : p ∈ beginnings l t ↔ BeginsAt l t p := by
  unfold beginnings BeginsAt
  rw [List.mem_filter, begins_iff, and_iff_right (List.mem_finRange p)]

/-- The positions are in the order of the list. -/
theorem beginnings_increasing (l : WordList) (t : String) :
    (beginnings l t).Pairwise (· < ·) :=
  (List.pairwise_lt_finRange 2048).filter _

/-- The words that a token begins are those at the positions, in their
order and with none left out. -/
theorem matching_eq_map (l : WordList) (t : String) :
    matching l t = (beginnings l t).map l.word := by
  unfold matching beginnings
  rw [← l.map_word_finRange, List.filter_map]
  rfl

/-- They are the only positions in order whose words it begins. -/
theorem eq_beginnings {ps : List (Fin 2048)}
    (hps : ps.Pairwise (· < ·)) (hmem : ∀ p, p ∈ ps ↔ BeginsAt l t p) :
    ps = beginnings l t := by
  apply hps.eq_of_mem_iff (beginnings_increasing l t)
  intro p
  rw [hmem, mem_beginnings]

theorem beginnings_eq_nil (h : ∀ p, ¬ BeginsAt l t p) :
    beginnings l t = [] := by
  symm
  apply eq_beginnings .nil
  intro p
  exact ⟨fun hp => absurd hp List.not_mem_nil, fun hp => absurd hp (h p)⟩

theorem beginnings_eq_singleton (hp : BeginsAt l t p)
    (hone : ∀ q, BeginsAt l t q → q = p) : beginnings l t = [p] := by
  symm
  apply eq_beginnings (List.pairwise_singleton _ p)
  intro q
  rw [List.mem_singleton]
  refine ⟨fun hq => ?_, hone q⟩
  rw [hq]
  exact hp

theorem beginnings_eq_cons_cons (hne : p ≠ q) (hp : BeginsAt l t p)
    (hq : BeginsAt l t q) : ∃ a b ps, beginnings l t = a :: b :: ps := by
  rw [← mem_beginnings] at hp hq
  cases hb : beginnings l t with
  | nil =>
      rw [hb] at hp
      cases hp
  | cons a ps =>
      cases ps with
      | nil =>
          rw [hb, List.mem_singleton] at hp hq
          exact absurd (hp.trans hq.symm) hne
      | cons b ps => exact ⟨a, b, ps, rfl⟩

-- ============================================================ one token

/-- What a token stands for: itself, if it is on the list, and else the
one word that it begins. -/
inductive StandsFor (l : WordList) (t : String) : String → Prop where
  | itself : t ∈ l.words → StandsFor l t t
  | abbreviated {p : Fin 2048} :
      t ∉ l.words → leastAbbreviation ≤ t.length → BeginsAt l t p →
      (∀ q, BeginsAt l t q → q = p) → StandsFor l t (l.word p)

/-- A token is on the list, or else it is long enough and begins the
word at one position only. -/
def Expandable (l : WordList) (t : String) : Prop :=
  t ∈ l.words ∨ leastAbbreviation ≤ t.length ∧ ∃! p, BeginsAt l t p

/-- A token can be expanded exactly if it stands for some word. -/
theorem expandable_iff : Expandable l t ↔ ∃ w, StandsFor l t w := by
  refine ⟨fun h => ?_, fun h => ?_⟩
  · by_cases hmem : t ∈ l.words
    · exact ⟨t, .itself hmem⟩
    · rcases h with h | h
      · exact absurd h hmem
      · obtain ⟨hlong, p, hp, hone⟩ := h
        exact ⟨l.word p, .abbreviated hmem hlong hp hone⟩
  · obtain ⟨w, hw⟩ := h
    cases hw with
    | itself hmem => exact Or.inl hmem
    | abbreviated _ hlong hp hone => exact Or.inr ⟨hlong, _, hp, hone⟩

theorem not_mem_of_not_expandable (h : ¬ Expandable l t) :
    t ∉ l.words := by
  intro hmem
  exact h (Or.inl hmem)

/-- The ends of resolving a token and what brings them about. -/
inductive Resolution (l : WordList) (t : String) :
    Except Error String → Prop where
  | standsFor {w : String} : StandsFor l t w → Resolution l t (.ok w)
  | tooShort :
      t ∉ l.words → t.length < leastAbbreviation →
      Resolution l t (.error (.tooShort t leastAbbreviation))
  | unknown :
      t ∉ l.words → leastAbbreviation ≤ t.length →
      (∀ p, ¬ BeginsAt l t p) → Resolution l t (.error (.unknown t))
  | ambiguous {p q : Fin 2048} :
      t ∉ l.words → leastAbbreviation ≤ t.length →
      p ≠ q → BeginsAt l t p → BeginsAt l t q →
      Resolution l t (.error (.ambiguous t ((beginnings l t).map l.word)))

/-- A token that is long enough and not on the list is resolved by the
words that it begins. -/
theorem resolve_of_long (hnot : t ∉ l.words)
    (hlong : leastAbbreviation ≤ t.length) :
    resolve l t =
      match (beginnings l t).map l.word with
      | [] => .error (.unknown t)
      | [w] => .ok w
      | ws => .error (.ambiguous t ws) := by
  have hnotShort : ¬ t.length < leastAbbreviation := by omega
  rw [← matching_eq_map, resolve_of_not_mem hnot]
  unfold unabbreviate
  exact if_neg hnotShort

/-- A token is resolved to the word that it stands for. -/
theorem resolve_of_standsFor (h : StandsFor l t w) :
    resolve l t = .ok w := by
  cases h with
  | itself hmem => exact resolve_of_mem hmem
  | abbreviated hnot hlong hp hone =>
      rw [resolve_of_long hnot hlong, beginnings_eq_singleton hp hone]
      rfl

/-- Each condition leads to its end. -/
theorem resolve_eq_of_resolution {r : Except Error String}
    (h : Resolution l t r) : resolve l t = r := by
  cases h with
  | standsFor hw => exact resolve_of_standsFor hw
  | tooShort hnot hshort =>
      rw [resolve_of_not_mem hnot]
      unfold unabbreviate
      rw [if_pos hshort]
  | unknown hnot hlong hnone =>
      rw [resolve_of_long hnot hlong, beginnings_eq_nil hnone]
      rfl
  | ambiguous hnot hlong hne hp hq =>
      obtain ⟨a, b, ps, hb⟩ := beginnings_eq_cons_cons hne hp hq
      rw [resolve_of_long hnot hlong, hb]
      rfl

/-- Resolving a token always ends in one of the five ways. -/
theorem exists_resolution (l : WordList) (t : String) :
    ∃ r, Resolution l t r := by
  by_cases hmem : t ∈ l.words
  · exact ⟨_, .standsFor (.itself hmem)⟩
  · by_cases hshort : t.length < leastAbbreviation
    · exact ⟨_, .tooShort hmem hshort⟩
    · have hlong : leastAbbreviation ≤ t.length := by omega
      by_cases hnone : ∀ p, ¬ BeginsAt l t p
      · exact ⟨_, .unknown hmem hlong hnone⟩
      · obtain ⟨p, hp⟩ := not_forall_not.1 hnone
        -- of several positions, one differs from the first that was found
        by_cases hone : ∀ q, BeginsAt l t q → q = p
        · exact ⟨_, .standsFor (.abbreviated hmem hlong hp hone)⟩
        · obtain ⟨q, hq⟩ := not_forall.1 hone
          obtain ⟨hq, hne⟩ := Classical.not_imp.1 hq
          exact ⟨_, .ambiguous hmem hlong hne hq hp⟩

/-- A token resolves as its condition says, and in no other way. -/
theorem resolve_eq_iff {r : Except Error String} :
    resolve l t = r ↔ Resolution l t r := by
  refine ⟨fun h => ?_, resolve_eq_of_resolution⟩
  obtain ⟨r', hr'⟩ := exists_resolution l t
  rw [resolve_eq_of_resolution hr'] at h
  rw [← h]
  exact hr'

/-- A token is resolved to a word exactly if it stands for it. -/
theorem resolve_eq_ok_iff : resolve l t = .ok w ↔ StandsFor l t w := by
  rw [resolve_eq_iff]
  refine ⟨fun h => ?_, .standsFor⟩
  cases h with
  | standsFor hw => exact hw

-- ============================================== tokens that do not resolve

variable {e : Error}

/-- Every error of resolving a token is one of three, and each carries
the token. -/
theorem resolve_error_cases (h : resolve l t = .error e) :
    e = .tooShort t 4 ∨ e = .unknown t ∨ ∃ cs, e = .ambiguous t cs := by
  cases resolve_eq_iff.1 h with
  | tooShort _ _ => exact Or.inl rfl
  | unknown _ _ _ => exact Or.inr (Or.inl rfl)
  | ambiguous _ _ _ _ _ => exact Or.inr (Or.inr ⟨_, rfl⟩)

/-- A token that is refused stands for nothing. -/
theorem not_expandable_of_error (h : resolve l t = .error e) :
    ¬ Expandable l t := by
  rw [expandable_iff]
  intro hw
  obtain ⟨w, hw⟩ := hw
  rw [resolve_of_standsFor hw] at h
  cases h

theorem firstFailing_of_error (ts : List String)
    (h : resolve l t = .error e) :
    FirstFailing (Expandable l) (t :: ts) t 0 :=
  (firstFailing_cons_of_not (not_expandable_of_error h)).2 ⟨rfl, rfl⟩

/-- A token that is not on the list is too short whatever it begins. -/
theorem resolve_eq_tooShort_iff (hnot : t ∉ l.words) :
    resolve l t = .error (.tooShort t 4) ↔ t.length < 4 := by
  rw [resolve_eq_iff]
  refine ⟨fun h => ?_, .tooShort hnot⟩
  cases h with
  | tooShort _ hshort => exact hshort

/-- An unlisted token is unknown exactly if it is long enough and begins
no word. -/
theorem resolve_eq_unknown_iff (hnot : t ∉ l.words) :
    resolve l t = .error (.unknown t)
      ↔ 4 ≤ t.length ∧ ∀ p, ¬ BeginsAt l t p := by
  rw [resolve_eq_iff]
  refine ⟨fun h => ?_, fun h => .unknown hnot h.1 h.2⟩
  cases h with
  | unknown _ hlong hnone => exact ⟨hlong, hnone⟩

/-- The candidates are the words at all the positions, in order. -/
theorem resolve_eq_ambiguous_iff (hnot : t ∉ l.words)
    {cs : List String} :
    resolve l t = .error (.ambiguous t cs)
      ↔ 4 ≤ t.length
        ∧ (∃ p q, p ≠ q ∧ BeginsAt l t p ∧ BeginsAt l t q)
        ∧ ∃ ps : List (Fin 2048), ps.Pairwise (· < ·)
          ∧ (∀ p, p ∈ ps ↔ BeginsAt l t p) ∧ cs = ps.map l.word := by
  rw [resolve_eq_iff]
  refine ⟨fun h => ?_, fun h => ?_⟩
  · -- kept apart, since inversion would evaluate the candidates
    generalize hr : (Except.error (Error.ambiguous t cs)
      : Except Error String) = r at h
    cases h with
    | standsFor _ => cases hr
    | tooShort _ _ => cases hr
    | unknown _ _ _ => cases hr
    | ambiguous _ hlong hne hp hq =>
        have hcs := (Error.ambiguous.inj (Except.error.inj hr)).2
        exact ⟨hlong, ⟨_, _, hne, hp, hq⟩, beginnings l t,
          beginnings_increasing l t, fun p => mem_beginnings, hcs⟩
  · obtain ⟨hlong, ⟨p, q, hne, hp, hq⟩, ps, hps, hmem, rfl⟩ := h
    rw [eq_beginnings hps hmem]
    exact .ambiguous hnot hlong hne hp hq

-- ============================================================ sentences

variable {ts ws : List String}

theorem resolveAll_cons_of_error (h : resolve l t = .error e) :
    resolveAll l (t :: ts) = .error e := by
  show (resolve l t >>= _) = _
  rw [h]
  rfl

/-- Behind a token that was resolved the resolution goes on. -/
theorem resolveAll_cons_of_ok (h : resolve l t = .ok w) :
    resolveAll l (t :: ts) = (resolveAll l ts).map (w :: ·) := by
  show (resolve l t >>= fun v => resolveAll l ts >>= fun vs =>
    pure (v :: vs)) = _
  rw [h]
  cases resolveAll l ts <;> rfl

/-- Tokens resolve together exactly if each does. -/
theorem resolveAll_eq_ok_iff :
    resolveAll l ts = .ok ws ↔ List.Forall₂ (StandsFor l) ts ws := by
  induction ts generalizing ws with
  | nil =>
      rw [List.forall₂_nil_left_iff]
      show Except.ok [] = Except.ok ws ↔ _
      rw [Except.ok.injEq, eq_comm]
  | cons t ts ih =>
      rw [List.forall₂_cons_left_iff]
      cases ht : resolve l t with
      | error e =>
          rw [resolveAll_cons_of_error ht]
          refine ⟨fun h => ?_, fun h => ?_⟩
          · cases h
          · -- a token that stands for something is not refused
            obtain ⟨w, vs, hw, -⟩ := h
            rw [resolve_of_standsFor hw] at ht
            cases ht
      | ok w =>
          rw [resolveAll_cons_of_ok ht, Error.map_eq_ok_iff]
          refine ⟨fun h => ?_, fun h => ?_⟩
          · obtain ⟨vs, hvs, rfl⟩ := h
            exact ⟨w, vs, resolve_eq_ok_iff.1 ht, ih.1 hvs, rfl⟩
          · obtain ⟨v, vs, hv, hvs, rfl⟩ := h
            rw [resolve_of_standsFor hv] at ht
            cases ht
            exact ⟨vs, ih.2 hvs, rfl⟩

/-- What is reported of some tokens is reported of the first that stands
for nothing. -/
theorem resolveAll_eq_error_iff :
    resolveAll l ts = .error e
      ↔ ∃ t p, FirstFailing (Expandable l) ts t p
        ∧ resolve l t = .error e := by
  induction ts with
  | nil =>
      refine ⟨fun h => ?_, fun h => ?_⟩
      · cases h
      · obtain ⟨t, p, hfirst, -⟩ := h
        cases hfirst.at_place
  | cons t ts ih =>
      cases ht : resolve l t with
      | error d =>
          have hnot : ¬ Expandable l t := not_expandable_of_error ht
          rw [resolveAll_cons_of_error ht]
          refine ⟨fun h => ?_, fun h => ?_⟩
          · cases h
            exact ⟨t, 0, firstFailing_of_error ts ht, ht⟩
          · obtain ⟨u, p, hfirst, hu⟩ := h
            obtain ⟨-, rfl⟩ := (firstFailing_cons_of_not hnot).1 hfirst
            rw [ht] at hu
            cases hu
            rfl
      | ok w =>
          have hw : Expandable l t :=
            expandable_iff.2 ⟨w, resolve_eq_ok_iff.1 ht⟩
          rw [resolveAll_cons_of_ok ht, Error.map_eq_error_iff, ih]
          refine ⟨fun h => ?_, fun h => ?_⟩
          · obtain ⟨u, p, hfirst, hu⟩ := h
            exact ⟨u, p + 1, (firstFailing_cons_succ hw).2 hfirst, hu⟩
          · obtain ⟨u, p, hfirst, hu⟩ := h
            cases p with
            | zero =>
                -- the first token stands for something
                obtain rfl : t = u := Option.some.inj hfirst.at_place
                exact absurd hw hfirst.fails
            | succ p =>
                exact ⟨u, p, (firstFailing_cons_succ hw).1 hfirst, hu⟩

/-- What is reported is why the first failing token is refused. -/
theorem resolveAll_of_firstFailing {n : Nat}
    (h : FirstFailing (Expandable l) ts t n) :
    resolveAll l ts = .error e ↔ resolve l t = .error e := by
  rw [resolveAll_eq_error_iff]
  refine ⟨fun he => ?_, fun he => ⟨t, n, h, he⟩⟩
  obtain ⟨u, m, hu, he⟩ := he
  rw [h.eq hu]
  exact he

/-- Tokens stand for words all together if each of them does. -/
theorem exists_forall₂_standsFor_iff :
    (∃ ws, List.Forall₂ (StandsFor l) ts ws)
      ↔ ∀ t ∈ ts, Expandable l t := by
  induction ts with
  | nil => simp
  | cons t ts ih =>
      rw [List.forall_mem_cons, expandable_iff, ← ih]
      refine ⟨fun h => ?_, fun h => ?_⟩
      · obtain ⟨ws, hws⟩ := h
        obtain ⟨w, vs, hw, hvs, -⟩ := List.forall₂_cons_left_iff.1 hws
        exact ⟨⟨w, hw⟩, vs, hvs⟩
      · obtain ⟨⟨w, hw⟩, vs, hvs⟩ := h
        exact ⟨w :: vs, .cons hw hvs⟩

-- ======================================================== the expansion

variable {s x : String}

/-- A sentence expands to the words that its tokens stand for, with a
space between any two. -/
theorem expand_eq_ok_iff :
    expand l s = .ok x
      ↔ ∃ ws, List.Forall₂ (StandsFor l) (Text.tokens s) ws
        ∧ x = " ".intercalate ws := by
  unfold expand
  rw [Error.map_eq_ok_iff]
  refine ⟨fun h => ?_, fun h => ?_⟩
  · obtain ⟨ws, hws, rfl⟩ := h
    exact ⟨ws, resolveAll_eq_ok_iff.1 hws, Text.spaced_eq_intercalate ws⟩
  · obtain ⟨ws, hws, rfl⟩ := h
    exact ⟨ws, resolveAll_eq_ok_iff.2 hws, Text.spaced_eq_intercalate ws⟩

/-- A sentence is refused as its tokens are. -/
theorem expand_eq_error_iff :
    expand l s = .error e ↔ resolveAll l (Text.tokens s) = .error e := by
  unfold expand
  rw [Error.map_eq_error_iff]

/-- A sentence can be expanded exactly if all its tokens can. -/
theorem exists_expand_eq_ok_iff :
    (∃ x, expand l s = .ok x) ↔ ∀ t ∈ Text.tokens s, Expandable l t := by
  rw [← exists_forall₂_standsFor_iff]
  refine ⟨fun h => ?_, fun h => ?_⟩
  · obtain ⟨x, hx⟩ := h
    obtain ⟨ws, hws, -⟩ := expand_eq_ok_iff.1 hx
    exact ⟨ws, hws⟩
  · obtain ⟨ws, hws⟩ := h
    exact ⟨_, expand_eq_ok_iff.2 ⟨ws, hws, rfl⟩⟩

/-- A sentence expands exactly if each of its tokens is a word of the
list or an abbreviation of one, and then to these words with single
spaces between. What is reported otherwise is decided by the first token
that is neither, by its length before anything else, and then by the
positions whose words it begins. -/
theorem expand_classified (l : WordList) (s : String) :
    let ts := Text.tokens s
    ((∃ x, expand l s = .ok x)
        ↔ ∀ t ∈ ts, t ∈ l.words ∨ 4 ≤ t.length ∧ ∃! p, BeginsAt l t p)
      ∧ (∀ x, expand l s = .ok x
          ↔ ∃ ws, List.Forall₂ (StandsFor l) ts ws
            ∧ x = " ".intercalate ws)
      ∧ (ts = [] → expand l s = .ok "")
      ∧ (∀ e, expand l s = .error e →
          ∃ t n, FirstFailing (Expandable l) ts t n
            ∧ (e = .tooShort t 4 ∨ e = .unknown t
              ∨ ∃ cs, e = .ambiguous t cs))
      ∧ ∀ t n, FirstFailing (Expandable l) ts t n →
          (expand l s = .error (.tooShort t 4) ↔ t.length < 4)
            ∧ (expand l s = .error (.unknown t)
                ↔ 4 ≤ t.length ∧ ∀ p, ¬ BeginsAt l t p)
            ∧ ∀ cs, expand l s = .error (.ambiguous t cs)
                ↔ 4 ≤ t.length
                  ∧ (∃ p q, p ≠ q ∧ BeginsAt l t p ∧ BeginsAt l t q)
                  ∧ ∃ ps : List (Fin 2048), ps.Pairwise (· < ·)
                    ∧ (∀ p, p ∈ ps ↔ BeginsAt l t p)
                    ∧ cs = ps.map l.word := by
  intro ts
  refine ⟨exists_expand_eq_ok_iff, fun x => expand_eq_ok_iff,
    fun hnil => ?_, fun e he => ?_, fun t n hfirst => ?_⟩
  · apply expand_eq_ok_iff.2
    refine ⟨[], ?_, rfl⟩
    show List.Forall₂ _ ts []
    rw [hnil]
    exact .nil
  · obtain ⟨t, n, hfirst, ht⟩ :=
      resolveAll_eq_error_iff.1 (expand_eq_error_iff.1 he)
    exact ⟨t, n, hfirst, resolve_error_cases ht⟩
  · have hnot := not_mem_of_not_expandable hfirst.fails
    -- the sentence fails as its first failing token does
    have hiff (e : Error) :
        expand l s = .error e ↔ resolve l t = .error e :=
      expand_eq_error_iff.trans (resolveAll_of_firstFailing hfirst)
    rw [hiff, hiff]
    refine ⟨resolve_eq_tooShort_iff hnot, resolve_eq_unknown_iff hnot,
      fun cs => ?_⟩
    rw [hiff]
    exact resolve_eq_ambiguous_iff hnot

/-- Words that share what they begin with. -/
def sharingWords : List String :=
  ["able", "station", "statue", "zoo", "zoology"]

/-- These and the empty word at all the other positions. -/
def paddedWords : List String := sharingWords ++ List.replicate 2043 ""

theorem length_paddedWords : paddedWords.length = 2048 := by
  unfold paddedWords
  rw [List.length_append, List.length_replicate]
  rfl

/-- The list has the words that share beginnings, and the empty word. -/
theorem mem_paddedWords :
    w ∈ paddedWords ↔ w ∈ sharingWords ∨ w = "" := by
  have hpos : 2043 ≠ 0 := by omega
  unfold paddedWords
  rw [List.mem_append, List.mem_replicate, and_iff_right hpos]

theorem word_of_padded (hl : l.words = paddedWords) :
    l.word p = sharingWords.getD p.val "" := by
  have hfew : sharingWords.length = 5 := rfl
  have hword : l.words[p.val]? = some (l.word p) := WordList.word?_word p
  rw [hl] at hword
  unfold paddedWords at hword
  rw [List.getD_eq_getElem?_getD]
  by_cases hp : p.val < sharingWords.length
  · rw [List.getElem?_append_left hp] at hword
    rw [hword]
    rfl
  · have hle : sharingWords.length ≤ p.val := by omega
    rw [List.getElem?_append_right hle,
      List.getElem?_replicate_of_lt (by omega)] at hword
    rw [List.getElem?_eq_none hle, ← Option.some.inj hword]
    rfl

/-- Where a token begins one of them. -/
def sharingPlaces (t : String) : List Nat :=
  (List.range 5).filter fun n => begins t (sharingWords.getD n "")

/-- Where a token begins a word is looked up among the first words,
since it does not begin the empty one. -/
theorem beginsAt_padded_iff (hl : l.words = paddedWords) (ht : t ≠ "") :
    BeginsAt l t p ↔ p.val ∈ sharingPlaces t := by
  unfold BeginsAt sharingPlaces
  rw [List.mem_filter, List.mem_range, begins_iff, word_of_padded hl]
  refine ⟨fun h => ⟨?_, h⟩, fun h => h.2⟩
  by_contra hle
  have hnone : sharingWords[p.val]? = none :=
    List.getElem?_eq_none (Nat.not_lt.1 hle)
  rw [List.getD_eq_getElem?_getD, hnone] at h
  exact ht (String.toList_inj.1 (List.prefix_nil.1 h))

theorem beginsAt_zool_iff (hl : l.words = paddedWords) :
    BeginsAt l "zool" p ↔ p = 4 := by
  have hplaces : sharingPlaces "zool" = [4] := by decide +kernel
  rw [beginsAt_padded_iff hl (by decide), hplaces, List.mem_singleton,
    Fin.ext_iff]
  rfl

theorem beginsAt_stat_iff (hl : l.words = paddedWords) :
    BeginsAt l "stat" p ↔ p = 1 ∨ p = 2 := by
  have hplaces : sharingPlaces "stat" = [1, 2] := by decide +kernel
  rw [beginsAt_padded_iff hl (by decide), hplaces, List.mem_pair,
    Fin.ext_iff, Fin.ext_iff]
  rfl

theorem not_beginsAt_zoon (hl : l.words = paddedWords) :
    ¬ BeginsAt l "zoon" p := by
  have hplaces : sharingPlaces "zoon" = [] := by decide +kernel
  rw [beginsAt_padded_iff hl (by decide), hplaces]
  exact List.not_mem_nil

/-- A word stands for itself though another begins with it, the
candidates keep their order, and three characters are too few even for
the beginning of one word only. -/
theorem expand_classified_sharing :
    ∃ l, WordList.ofWords paddedWords = .ok l
      ∧ expand l "zoo\u00a0zool " = .ok "zoo zoology"
      ∧ expand l "zoo stat abl"
        = .error (.ambiguous "stat" ["station", "statue"])
      ∧ expand l "abl stat" = .error (.tooShort "abl" 4)
      ∧ expand l "zoon stat" = .error (.unknown "zoon") := by
  obtain ⟨l, hl⟩ := WordList.exists_ofWords length_paddedWords
  have hwords : l.words = paddedWords := WordList.words_of_ofWords hl
  have hzoo : "zoo" ∈ l.words := by
    rw [hwords, mem_paddedWords]
    decide
  have hnot (t : String) (ht : ¬ (t ∈ sharingWords ∨ t = "")) :
      t ∉ l.words := by
    rw [hwords, mem_paddedWords]
    exact ht
  have hstation : BeginsAt l "stat" 1 :=
    (beginsAt_stat_iff hwords).2 (Or.inl rfl)
  have hstatue : BeginsAt l "stat" 2 :=
    (beginsAt_stat_iff hwords).2 (Or.inr rfl)
  refine ⟨l, hl, ?_, ?_, ?_, ?_⟩
  · have htokens : Text.tokens "zoo\u00a0zool " = ["zoo", "zool"] := by
      decide +kernel
    have hword : l.word 4 = "zoology" := word_of_padded hwords
    have hstands : StandsFor l "zool" "zoology" := by
      rw [← hword]
      exact .abbreviated (hnot "zool" (by decide)) (by decide)
        ((beginsAt_zool_iff hwords).2 rfl)
        fun q => (beginsAt_zool_iff hwords).1
    apply ((expand_classified l _).2.1 _).2
    refine ⟨["zoo", "zoology"], ?_, by decide +kernel⟩
    rw [htokens]
    exact .cons (.itself hzoo) (.cons hstands .nil)
  · have htokens : Text.tokens "zoo stat abl" = ["zoo", "stat", "abl"] := by
      decide +kernel
    have hstat := resolve_eq_of_resolution
      (.ambiguous (hnot "stat" (by decide)) (by decide) (by decide)
        hstation hstatue)
    have hlisted : Expandable l "zoo" := Or.inl hzoo
    have hfirst := (firstFailing_cons_succ hlisted).2
      (firstFailing_of_error ["abl"] hstat)
    rw [← htokens] at hfirst
    obtain ⟨-, -, hambiguous⟩ :=
      (expand_classified l _).2.2.2.2 _ _ hfirst
    apply (hambiguous _).2
    refine ⟨by decide, ⟨1, 2, by decide, hstation, hstatue⟩, [1, 2], ?_,
      fun p => ?_, ?_⟩
    · exact List.pairwise_pair.2 (by decide)
    · rw [beginsAt_stat_iff hwords, List.mem_pair]
    · show _ = [l.word 1, l.word 2]
      rw [word_of_padded hwords, word_of_padded hwords]
      rfl
  · have htokens : Text.tokens "abl stat" = ["abl", "stat"] := by
      decide +kernel
    have habl := resolve_eq_of_resolution
      (.tooShort (hnot "abl" (by decide)) (by decide))
    have hfirst := firstFailing_of_error ["stat"] habl
    rw [← htokens] at hfirst
    obtain ⟨hshort, -, -⟩ := (expand_classified l _).2.2.2.2 _ _ hfirst
    exact hshort.2 (by decide)
  · have htokens : Text.tokens "zoon stat" = ["zoon", "stat"] := by
      decide +kernel
    have hzoon := resolve_eq_of_resolution
      (.unknown (hnot "zoon" (by decide)) (by decide) fun p =>
        not_beginsAt_zoon hwords)
    have hfirst := firstFailing_of_error ["stat"] hzoon
    rw [← htokens] at hfirst
    obtain ⟨-, hunknown, -⟩ := (expand_classified l _).2.2.2.2 _ _ hfirst
    exact hunknown.2 ⟨by decide, fun p => not_beginsAt_zoon hwords⟩

end Mnemonic.Sentence
