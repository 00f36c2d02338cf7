/-
Decoding over a list in which every word has been given another name.

A list enters decoding in one place only, where a token is looked up,
and what comes back is a position. So it is enough that the renamed list
answers for the new name of a word what the list answers for the word
(`Renames`), whatever order its index keeps the new names in. Then every
end that decoding the tokens can have is also the end for their new
names, except that a missing word is reported by its new name
(`Outcome.renamed`).

That the look-ups agree rests on the renaming being injective: the first
position of a name is then the first position of the word
(`idxOf?_map_of_injective`), where words are repeated as well, and no
name is found whose word was missing.
-/
import Mathlib.Logic.Equiv.Basic
import Mnemonic.Proofs.Sentence.Agreement

namespace Mnemonic

/-- A missing word is reported by another name. -/
def Error.renamed (r : String → String) : Error → Error
  | .wordNotFound w p => .wordNotFound (r w) p
  | e => e

namespace WordList

-- ================================================== look-up by new names

/-- One list finds the new name of each word where another finds the
word, and misses it where the other does. -/
def Renames (r : String → String) (l m : WordList) : Prop :=
  ∀ w, m.index? (r w) = l.index? w

variable {l m : WordList} {r : String → String} {w : String}
  {ts ws : List String}

/-- The new name of a word is listed exactly if the word was. -/
theorem Renames.mem_iff (h : Renames r l m) :
    r w ∈ m.words ↔ w ∈ l.words := by
  rw [← isSome_index?_iff_mem, ← isSome_index?_iff_mem, h w]

theorem Renames.lists_map_iff (h : Renames r l m) :
    m.Lists (ts.map r) ↔ l.Lists ts := by
  unfold Lists
  rw [List.forall_mem_map]
  exact forall₂_congr fun w _ => h.mem_iff

/-- Renamed words are found where the words were. -/
theorem Renames.positions_map (h : Renames r l m) :
    m.positions (ts.map r) = l.positions ts := by
  have hlook : m.index? ∘ r = l.index? := funext h
  unfold positions
  rw [List.filterMap_map, hlook]

/-- The first missing word is the first missing one after renaming, at
the same place. -/
theorem Renames.firstMissing_map {p : Nat} (h : Renames r l m)
    (hw : FirstMissing l ts w p) :
    FirstMissing m (ts.map r) (r w) p := by
  obtain ⟨hat, hmiss, hbefore⟩ := hw
  refine ⟨?_, ?_, ?_⟩
  · rw [List.getElem?_map, hat]
    rfl
  · rw [h.mem_iff]
    exact hmiss
  · intro v hv
    rw [← List.map_take] at hv
    obtain ⟨u, hu, rfl⟩ := List.mem_map.1 hv
    exact h.mem_iff.2 (hbefore u hu)

/-- An injective renaming leaves first positions where they are. -/
theorem idxOf?_map_of_injective (hr : Function.Injective r)
    (ws : List String) (w : String) :
    (ws.map r).idxOf? (r w) = ws.idxOf? w := by
  induction ws with
  | nil => rfl
  | cons v ws ih =>
      rw [List.map_cons, List.idxOf?_cons, List.idxOf?_cons, ih]
      by_cases hv : v = w
      · simp [hv]
      · have hne : r v ≠ r w := fun heq => hv (hr heq)
        simp [hv, hne]

/-- Renaming the words that a list is made from renames the list, if no
two words get one name. -/
theorem renames_of_ofWords (hr : Function.Injective r)
    (hl : ofWords ws = .ok l) (hm : ofWords (ws.map r) = .ok m) :
    Renames r l m := by
  intro w
  rw [index?_of_ofWords hm, index?_of_ofWords hl,
    idxOf?_map_of_injective hr]

end WordList

namespace Sentence

-- ================================================= decoding by new names

variable {H : Hash} {l m : WordList} {r : String → String}
  {s x w : String} {ts ws : List String}

/-- The new names of some tokens end as the tokens do. -/
theorem Outcome.renamed {e : Except Error (Payload × WordCount)}
    (h : WordList.Renames r l m) (he : Outcome H l ts e) :
    Outcome H m (ts.map r) (e.mapError (Error.renamed r)) := by
  have hlen : (ts.map r).length = ts.length := List.length_map ..
  have hpacked : packed m (ts.map r) = packed l ts := by
    unfold packed
    rw [h.positions_map]
  cases he with
  | unsupported hk =>
      rw [← hlen] at hk ⊢
      exact .unsupported hk
  | missing hk hw =>
      rw [← hlen] at hk
      exact .missing hk (h.firstMissing_map hw)
  | mismatch hk hl hcheck =>
      rw [← hlen] at hk
      rw [← hlen, ← hpacked] at hcheck
      exact .mismatch hk (h.lists_map_iff.2 hl) hcheck
  | accepted hc hl hcheck =>
      rw [← hlen] at hc
      rw [← hlen, ← hpacked] at hcheck
      rw [← hpacked]
      exact .accepted hc (h.lists_map_iff.2 hl) hcheck

/-- A renamed sentence has the same payload over the renamed list, or
the same refusal with the word renamed. -/
theorem payloadWith_renamed (h : WordList.Renames r l m)
    (hx : Text.tokens x = (Text.tokens s).map r) :
    payloadWith H m x
      = (payloadWith H l s).mapError (Error.renamed r) := by
  rw [payloadWith_eq_iff, hx]
  exact Outcome.renamed h (payloadWith_eq_iff.1 rfl)

/-- Renaming what is missing and showing a part of what is there do not
get in each other's way. -/
theorem map_mapError {α β : Type} (f : α → β) (g : Error → Error)
    (a : Except Error α) :
    (a.mapError g).map f = (a.map f).mapError g := by
  cases a <;> rfl

/-- Decoding does not see the names of words, but for the one that it
reports. -/
theorem decodeWith_of_renames (h : WordList.Renames r l m)
    (hx : Text.tokens x = (Text.tokens s).map r) :
    decodeWith H m x
      = (decodeWith H l s).mapError (Error.renamed r) := by
  rw [decodeWith_eq_map, decodeWith_eq_map, payloadWith_renamed h hx,
    map_mapError]

theorem decodeBytesWith_of_renames (h : WordList.Renames r l m)
    (hx : Text.tokens x = (Text.tokens s).map r) :
    decodeBytesWith H m x
      = (decodeBytesWith H l s).mapError (Error.renamed r) := by
  rw [decodeBytesWith_eq_map, decodeBytesWith_eq_map,
    payloadWith_renamed h hx, map_mapError]

/-- Rename the words of a list injectively, so that words which can be
tokens become words which can be tokens, and rename the tokens of a
sentence in the same way, listed or not. The renamed sentence decodes
over the renamed list to what the sentence decodes to, with the checksum
byte and without, and is refused for the same cause, a missing word
being reported by its new name. -/
theorem decodeWith_renamed (H : Hash) (hl : WordList.ofWords ws = .ok l)
    (hr : Function.Injective r)
    (htoken : ∀ w, Text.IsToken w → Text.IsToken (r w)) :
    ∃ m, WordList.ofWords (ws.map r) = .ok m
      ∧ ∀ s, let x := " ".intercalate ((Text.tokens s).map r)
          decodeWith H m x
              = (decodeWith H l s).mapError (Error.renamed r)
            ∧ decodeBytesWith H m x
              = (decodeBytesWith H l s).mapError (Error.renamed r) := by
  have hlen : (ws.map r).length = 2048 := by
    rw [List.length_map, WordList.length_of_ofWords hl]
  obtain ⟨m, hm⟩ := WordList.exists_ofWords hlen
  have hrenames := WordList.renames_of_ofWords hr hl hm
  refine ⟨m, hm, fun s => ?_⟩
  intro x
  have hx : Text.tokens x = (Text.tokens s).map r := by
    apply Text.tokens_intercalate
    rw [List.forall_mem_map]
    exact fun t ht => htoken t (Text.isToken_of_mem_tokens ht)
  exact ⟨decodeWith_of_renames hrenames hx,
    decodeBytesWith_of_renames hrenames hx⟩

theorem isToken_swap {v w : String} (hv : Text.IsToken v)
    (hw : Text.IsToken w) (u : String) (hu : Text.IsToken u) :
    Text.IsToken (Equiv.swap v w u) := by
  rw [Equiv.swap_apply_def]
  split
  · exact hw
  · split
    · exact hv
    · exact hu

theorem mem_awkwardList :
    w ∈ awkwardList.words
      ↔ w = "a" ∨ w = "b c" ∨ w = "" ∨ w = "d" ∨ w = "e" := by
  have hpos : 2044 ≠ 0 := by omega
  show w ∈ awkwardWords ↔ _
  unfold awkwardWords
  rw [List.mem_cons, List.mem_cons, List.mem_cons, List.mem_cons,
    List.mem_replicate, and_iff_right hpos]

/-- A token without an entry in the awkward list is refused with its
place. -/
theorem decodeBytesWith_unlisted :
    decodeBytesWith sha256 awkwardList "a a a a a a a a a a x d"
      = .error (.wordNotFound "x" 10) := by
  have htokens : Text.tokens "a a a a a a a a a a x d"
      = List.replicate 10 "a" ++ ["x", "d"] := by
    decide +kernel
  have hfirst : awkwardList.FirstMissing
      (List.replicate 10 "a" ++ ["x", "d"]) "x" 10 := by
    refine ⟨rfl, ?_, ?_⟩
    · rw [mem_awkwardList]
      simp
    · intro v hv
      have hv : v ∈ List.replicate 10 "a" := hv
      rw [mem_awkwardList, List.eq_of_mem_replicate hv]
      exact Or.inl rfl
  have hpayload : payloadWith sha256 awkwardList "a a a a a a a a a a x d"
      = .error (.wordNotFound "x" 10) := by
    rw [payloadWith_eq_iff, htokens]
    exact .missing (Or.inl rfl) hfirst
  rw [decodeBytesWith_eq_map, hpayload]
  rfl

/-- With the names "a" and "x" exchanged in a list that holds only the
first of them, zero bytes are written with the second, and now it is the
first that is missing. -/
theorem decodeWith_renamed_swap :
    ∃ m, WordList.ofWords (awkwardWords.map (Equiv.swap "a" "x")) = .ok m
      ∧ decodeWith sha256 m "x x x x x x x x x x x d"
        = .ok (List.replicate 16 0)
      ∧ decodeBytesWith sha256 m "x x x x x x x x x x a d"
        = .error (.wordNotFound "a" 10) := by
  have hdecoded : " ".intercalate
      ((Text.tokens "a a a a a a a a a a a d").map (Equiv.swap "a" "x"))
      = "x x x x x x x x x x x d" := by
    decide +kernel
  have hrefused : " ".intercalate
      ((Text.tokens "a a a a a a a a a a x d").map (Equiv.swap "a" "x"))
      = "x x x x x x x x x x a d" := by
    decide +kernel
  obtain ⟨m, hm, hboth⟩ :=
    decodeWith_renamed sha256 ofWords_awkwardWords
      (Equiv.swap "a" "x").injective
      (isToken_swap (by decide) (by decide))
  refine ⟨m, hm, ?_, ?_⟩
  · obtain ⟨hzeros, -⟩ := hboth "a a a a a a a a a a a d"
    rw [hdecoded, decodeWith_zeros] at hzeros
    exact hzeros
  · obtain ⟨-, hmissing⟩ := hboth "a a a a a a a a a a x d"
    rw [hrefused, decodeBytesWith_unlisted] at hmissing
    exact hmissing

end Sentence

end Mnemonic
