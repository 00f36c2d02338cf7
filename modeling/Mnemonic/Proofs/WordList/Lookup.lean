/-
Looking up the words of a sentence.

Whether every word of a sequence is on the list decides the look-up.
Then the answer is their positions, in order (`indices_of_lists`); else
it is the first word that is missing, with its place
(`indices_eq_error_iff`). The look-up stops at that word, so its
specification carries along where in the sentence it stands: the place
reported is the start of the look-up plus the number of words found
before, and each word found moves the start on by one. What it is to be
the first of some words at which something fails is said once for every
condition (`FirstFailing`), as expanding a sentence stops the same way.

A position of the list is found again through its word, or another is
(`index?_eq_ofPosition_iff`), the latter only where the word is repeated
(`recovers_of_nodup`).
-/
import Mathlib.Data.List.FinRange
import Mathlib.Data.List.Nodup
import Mnemonic.Proofs.Numeral.Regrouping
import Mnemonic.WordList.Basic

namespace Mnemonic

-- ======================================================= stopping early

/-- The first element of a list of which a condition fails, and its
place. -/
structure FirstFailing {α : Type} (P : α → Prop) (as : List α) (a : α)
    (p : Nat) : Prop where
  at_place : as[p]? = some a
  fails : ¬ P a
  holds_before : ∀ b ∈ as.take p, P b

section

variable {α : Type} {P : α → Prop} {as : List α} {a b : α} {p : Nat}

/-- An element in front that meets the condition moves the first failing
one on by one. -/
theorem firstFailing_cons_succ (hb : P b) :
    FirstFailing P (b :: as) a (p + 1) ↔ FirstFailing P as a p := by
  refine ⟨fun h => ?_, fun h => ?_⟩
  · obtain ⟨hat, hfails, hbefore⟩ := h
    refine ⟨hat, hfails, ?_⟩
    intro x hx
    exact hbefore x (List.mem_cons_of_mem _ hx)
  · obtain ⟨hat, hfails, hbefore⟩ := h
    refine ⟨hat, hfails, ?_⟩
    intro x hx
    rcases List.mem_cons.1 hx with rfl | hx
    · exact hb
    · exact hbefore x hx

/-- A failing element in front is the first one. -/
theorem firstFailing_cons_of_not (hb : ¬ P b) :
    FirstFailing P (b :: as) a p ↔ p = 0 ∧ a = b := by
  refine ⟨fun h => ?_, fun h => ?_⟩
  · obtain ⟨hat, -, hbefore⟩ := h
    cases p with
    | zero => exact ⟨rfl, (Option.some.inj hat).symm⟩
    | succ p => exact absurd (hbefore b List.mem_cons_self) hb
  · obtain ⟨rfl, rfl⟩ := h
    refine ⟨rfl, hb, ?_⟩
    intro x hx
    cases hx

/-- If some element fails, one is the first to do so. -/
theorem exists_firstFailing (h : ¬ ∀ a ∈ as, P a) :
    ∃ a p, FirstFailing P as a p := by
  induction as with
  | nil =>
      refine absurd ?_ h
      intro x hx
      cases hx
  | cons b as ih =>
      by_cases hb : P b
      · rw [List.forall_mem_cons, and_iff_right hb] at h
        obtain ⟨a, p, ha⟩ := ih h
        exact ⟨a, p + 1, (firstFailing_cons_succ hb).2 ha⟩
      · exact ⟨b, 0, (firstFailing_cons_of_not hb).2 ⟨rfl, rfl⟩⟩

/-- No element fails in front of the first one that does. -/
theorem FirstFailing.le {q : Nat} (h : FirstFailing P as a p)
    (hb : FirstFailing P as b q) : p ≤ q := by
  by_contra hlt
  have hat : (as.take p)[q]? = some b := by
    rw [List.getElem?_take_of_lt (by omega)]
    exact hb.at_place
  exact hb.fails (h.holds_before b (List.mem_of_getElem? hat))

/-- There is only one first element that fails. -/
theorem FirstFailing.eq {q : Nat} (h : FirstFailing P as a p)
    (hb : FirstFailing P as b q) : a = b := by
  have hpq : p = q := Nat.le_antisymm (h.le hb) (hb.le h)
  subst hpq
  exact Option.some.inj (h.at_place.symm.trans hb.at_place)

end

namespace WordList

open Numeral

-- ================================================== what is looked up

/-- Every word of a sequence is on the list. -/
def Lists (l : WordList) (ws : List String) : Prop := ∀ w ∈ ws, w ∈ l.words

/-- The positions of the words of a sequence, of those that are on the
list. -/
def positions (l : WordList) (ws : List String) : List UInt16 :=
  ws.filterMap l.index?

/-- The first word of a sequence that is not on the list, and its
place. -/
structure FirstMissing (l : WordList) (ws : List String) (w : String)
    (p : Nat) : Prop where
  at_place : ws[p]? = some w
  missing : w ∉ l.words
  listed_before : ∀ v ∈ ws.take p, v ∈ l.words

variable {l : WordList} {w v : String} {ws : List String}

/-- Nothing is found exactly for words that are not listed. -/
theorem index?_eq_none_iff : l.index? w = none ↔ w ∉ l.words := by
  rw [← isSome_index?_iff_mem, Option.not_isSome_iff_eq_none]

theorem exists_index? (h : w ∈ l.words) : ∃ i, l.index? w = some i :=
  Option.isSome_iff_exists.1 (isSome_index?_iff_mem.2 h)

theorem lists_cons : l.Lists (w :: ws) ↔ w ∈ l.words ∧ l.Lists ws := by
  unfold Lists
  rw [List.forall_mem_cons]

theorem positions_cons {i : UInt16} (h : l.index? w = some i) :
    l.positions (w :: ws) = i :: l.positions ws :=
  List.filterMap_cons_some h

theorem firstMissing_iff {p : Nat} :
    FirstMissing l ws w p ↔ FirstFailing (· ∈ l.words) ws w p := by
  refine ⟨fun h => ?_, fun h => ?_⟩
  · exact ⟨h.at_place, h.missing, h.listed_before⟩
  · exact ⟨h.at_place, h.fails, h.holds_before⟩

/-- A listed word in front moves the first missing word on by one. -/
theorem firstMissing_cons_succ {p : Nat} (hv : v ∈ l.words) :
    FirstMissing l (v :: ws) w (p + 1) ↔ FirstMissing l ws w p := by
  rw [firstMissing_iff, firstMissing_iff, firstFailing_cons_succ hv]

/-- A missing word in front is the first one. -/
theorem firstMissing_cons_of_not_mem {p : Nat} (hv : v ∉ l.words) :
    FirstMissing l (v :: ws) w p ↔ p = 0 ∧ w = v := by
  rw [firstMissing_iff, firstFailing_cons_of_not hv]

/-- If not all words are listed, one is the first that is missing. -/
theorem exists_firstMissing (h : ¬ l.Lists ws) :
    ∃ w p, FirstMissing l ws w p := by
  obtain ⟨w, p, hw⟩ := exists_firstFailing h
  exact ⟨w, p, firstMissing_iff.2 hw⟩

-- ======================================================== the look-up

/-- A look-up succeeds on listed words, wherever in the sentence they
stand. -/
theorem indicesFrom_of_lists (p : Nat) (h : l.Lists ws) :
    l.indicesFrom p ws = .ok (l.positions ws) := by
  induction ws generalizing p with
  | nil => rfl
  | cons w ws ih =>
      obtain ⟨hw, hws⟩ := lists_cons.1 h
      obtain ⟨i, hi⟩ := exists_index? hw
      unfold indicesFrom
      rw [hi, positions_cons hi]
      show (l.indicesFrom (p + 1) ws).map (i :: ·) = _
      rw [ih (p + 1) hws]
      rfl

/-- A look-up fails on the first missing word and reports its place in
the sentence. -/
theorem indicesFrom_of_firstMissing {q : Nat} (p : Nat)
    (h : FirstMissing l ws w q) :
    l.indicesFrom p ws = .error (.wordNotFound w (p + q)) := by
  induction ws generalizing p q with
  | nil => cases h.at_place
  | cons v ws ih =>
      unfold indicesFrom
      cases hi : l.index? v with
      | none =>
          have hv : v ∉ l.words := index?_eq_none_iff.1 hi
          obtain ⟨rfl, rfl⟩ := (firstMissing_cons_of_not_mem hv).1 h
          rfl
      | some i =>
          have hv : v ∈ l.words := by
            apply isSome_index?_iff_mem.1
            rw [hi]
            rfl
          cases q with
          | zero =>
              have hw : v = w := Option.some.inj h.at_place
              subst hw
              exact absurd hv h.missing
          | succ q =>
              -- the start moves on as the place in the rest moves back
              have hrest := (firstMissing_cons_succ hv).1 h
              show (l.indicesFrom (p + 1) ws).map (i :: ·) = _
              rw [ih (p + 1) hrest, Nat.add_right_comm, Nat.add_assoc]
              rfl

/-- The look-up of listed words gives their positions. -/
theorem indices_of_lists (h : l.Lists ws) :
    l.indices ws = .ok (l.positions ws) :=
  indicesFrom_of_lists 0 h

/-- The look-up of a sentence fails with its first missing word. -/
theorem indices_eq_error_iff {e : Error} :
    l.indices ws = .error e
      ↔ ∃ w p, FirstMissing l ws w p ∧ e = .wordNotFound w p := by
  unfold indices
  refine ⟨fun he => ?_, fun h => ?_⟩
  · by_cases h : l.Lists ws
    · rw [indicesFrom_of_lists 0 h] at he
      cases he
    · obtain ⟨w, p, hw⟩ := exists_firstMissing h
      rw [indicesFrom_of_firstMissing 0 hw, Nat.zero_add] at he
      cases he
      exact ⟨w, p, hw, rfl⟩
  · obtain ⟨w, p, hw, rfl⟩ := h
    rw [indicesFrom_of_firstMissing 0 hw, Nat.zero_add]

/-- The look-up of a sentence succeeds exactly on listed words, and then
with their positions. -/
theorem indices_eq_ok_iff {is : List UInt16} :
    l.indices ws = .ok is ↔ l.Lists ws ∧ is = l.positions ws := by
  refine ⟨fun his => ?_, fun h => ?_⟩
  · by_cases h : l.Lists ws
    · rw [indices_of_lists h] at his
      cases his
      exact ⟨h, rfl⟩
    · obtain ⟨w, p, hw⟩ := exists_firstMissing h
      rw [indices_eq_error_iff.2 ⟨w, p, hw, rfl⟩] at his
      cases his
  · obtain ⟨h, rfl⟩ := h
    exact indices_of_lists h

-- ================================================ the positions found

theorem length_positions (h : l.Lists ws) :
    (l.positions ws).length = ws.length := by
  induction ws with
  | nil => rfl
  | cons w ws ih =>
      obtain ⟨hw, hws⟩ := lists_cons.1 h
      obtain ⟨i, hi⟩ := exists_index? hw
      rw [positions_cons hi, List.length_cons, List.length_cons, ih hws]

theorem fits_positions (l : WordList) (ws : List String) :
    Indices.Fits (l.positions ws) := by
  intro i hi
  obtain ⟨w, -, hw⟩ := List.mem_filterMap.1 hi
  exact index?_lt hw

/-- A position of the list finds its way back when its word is looked up
at it. -/
def Recovers (l : WordList) (g : Fin 2048) : Prop :=
  l.index? (l.word g) = some (Index.ofPosition g)

/-- A word that is found at a position is the word there. -/
theorem eq_word_of_index? {g : Fin 2048}
    (h : l.index? w = some (Index.ofPosition g)) : w = l.word g := by
  have hlt : g.val < 65536 := by omega
  have hw := word?_of_index? h
  rw [Index.toNat_ofPosition hlt, word?_word] at hw
  exact (Option.some.inj hw).symm

/-- A word is found at a position exactly if it is the word there and the
position finds its way back. -/
theorem index?_eq_ofPosition_iff {g : Fin 2048} :
    l.index? w = some (Index.ofPosition g) ↔ w = l.word g ∧ l.Recovers g := by
  unfold Recovers
  refine ⟨fun h => ?_, fun h => ?_⟩
  · have hw := eq_word_of_index? h
    rw [hw] at h
    exact ⟨hw, h⟩
  · obtain ⟨rfl, hg⟩ := h
    exact hg

/-- The positions found are some given ones exactly if the words are
those that stand there, and each of them is looked up at its own
position. -/
theorem positions_eq_iff {gs : List (Fin 2048)} (h : l.Lists ws) :
    l.positions ws = gs.map (fun g => Index.ofPosition g.val)
      ↔ ws = gs.map l.word ∧ ∀ g ∈ gs, l.Recovers g := by
  induction ws generalizing gs with
  | nil =>
      cases gs with
      | nil => simp [positions]
      | cons g gs => simp [positions]
  | cons w ws ih =>
      obtain ⟨hw, hws⟩ := lists_cons.1 h
      obtain ⟨i, hi⟩ := exists_index? hw
      cases gs with
      | nil => simp [positions_cons hi]
      | cons g gs =>
          have hhead : i = Index.ofPosition g
              ↔ w = l.word g ∧ l.Recovers g := by
            rw [← index?_eq_ofPosition_iff, hi, Option.some.injEq]
          rw [positions_cons hi, List.map_cons, List.map_cons,
            List.cons.injEq, List.cons.injEq, List.forall_mem_cons, hhead,
            ih hws]
          exact and_and_and_comm

/-- The words in order are those at the positions in order. -/
theorem map_word_finRange (l : WordList) :
    (List.finRange 2048).map l.word = l.words := by
  apply List.ext_getElem
  · rw [List.length_map, List.length_finRange, l.length_words]
  · intro n _ _
    rw [List.getElem_map, List.getElem_finRange]
    rfl

theorem word_mem (l : WordList) (g : Fin 2048) : l.word g ∈ l.words :=
  List.get_mem _ _

/-- A listed word stands at some position. -/
theorem exists_word_of_mem (h : w ∈ l.words) : ∃ g, l.word g = w := by
  rw [← map_word_finRange, List.mem_map] at h
  obtain ⟨g, -, hg⟩ := h
  exact ⟨g, hg⟩

/-- If no word is repeated, different positions have different words. -/
theorem word_injective (h : l.words.Nodup) : Function.Injective l.word := by
  intro g j heq
  have hval := congrArg Fin.val (List.nodup_iff_injective_get.1 h heq)
  exact Fin.ext hval

/-- Over different words every position finds its way back. -/
theorem recovers_of_nodup (h : l.words.Nodup) (g : Fin 2048) :
    l.Recovers g := by
  obtain ⟨i, hi⟩ := exists_index? (l.word_mem g)
  have hlt := index?_lt hi
  have hword : l.word ⟨i.toNat, hlt⟩ = l.word g := by
    have hw := word?_of_index? hi
    rw [word?_word ⟨i.toNat, hlt⟩] at hw
    exact Option.some.inj hw
  have hval : i.toNat = g.val := congrArg Fin.val (word_injective h hword)
  unfold Recovers
  rw [hi, Index.ofPosition, ← hval, UInt16.ofNat_toNat]

end WordList

end Mnemonic
