/-
Expansion over the same words in another order.

What becomes of a token depends on whether it is on the list and on the
words that it begins, repeated ones as often as they stand there. Neither
is changed by putting the words of the list in another order, but for the
order in which the second are listed (`matching_perm`). So the two lists
answer in counterpart ways: with the same word, with the same refusal, or
by calling the token ambiguous, each with the candidates in its own order
(`counterpart_resolve`). The positions of the words, of which a listed
token is found at one, play no part in this: what stands there is the
token.

As the same tokens stand for something over both lists
(`expandable_perm`), a sentence is stopped by the same token.
-/
import Mnemonic.Proofs.Sentence.Candidates

namespace Mnemonic.Sentence

variable {l m : WordList} {t w s : String}

-- =========================================================== one token

/-- The words that a token begins are the same, each as often. -/
theorem matching_perm (h : l.words.Perm m.words) (t : String) :
    (matching l t).Perm (matching m t) :=
  h.filter _

/-- Answers of two lists on one token that differ at most in the order of
the candidates, which is the order of each list. -/
inductive Counterpart (l m : WordList) (t : String) :
    Except Error String → Except Error String → Prop where
  | word (w : String) : Counterpart l m t (.ok w) (.ok w)
  | tooShort :
      Counterpart l m t (.error (.tooShort t leastAbbreviation))
        (.error (.tooShort t leastAbbreviation))
  | unknown : Counterpart l m t (.error (.unknown t)) (.error (.unknown t))
  | ambiguous :
      Counterpart l m t (.error (.ambiguous t (matching l t)))
        (.error (.ambiguous t (matching m t)))

/-- A long token that is on neither list is settled by what it begins, of
which there are equally many words. -/
theorem counterpart_of_long (h : l.words.Perm m.words)
    (hlong : leastAbbreviation ≤ t.length) (hl : t ∉ l.words)
    (hm : t ∉ m.words) :
    Counterpart l m t (resolve l t) (resolve m t) := by
  have hperm := matching_perm h t
  rcases resolve_cases hlong hl with hnone | ⟨w, hone⟩ | ⟨cs, hmany⟩
  · obtain ⟨hnil, -⟩ := (resolve_eq_unknown_iff_matching hlong hl).1 hnone
    rw [hnil] at hperm
    have hother : resolve m t = .error (.unknown t) :=
      (resolve_eq_unknown_iff_matching hlong hm).2 ⟨hperm.nil_eq.symm, rfl⟩
    rw [hnone, hother]
    exact .unknown
  · rw [(resolve_eq_ok_iff_matching hlong hl).1 hone] at hperm
    have hother : resolve m t = .ok w :=
      (resolve_eq_ok_iff_matching hlong hm).2 hperm.singleton_eq.symm
    rw [hone, hother]
    exact .word w
  · obtain ⟨rfl, htwo, -⟩ :=
      (resolve_eq_ambiguous_iff_matching hlong hl).1 hmany
    rw [hperm.length_eq] at htwo
    have hother : resolve m t = .error (.ambiguous t (matching m t)) :=
      (resolve_eq_ambiguous_iff_matching hlong hm).2 ⟨rfl, htwo, rfl⟩
    rw [hmany, hother]
    exact .ambiguous

/-- Lists that are permutations of one another answer alike on every
token. -/
theorem counterpart_resolve (h : l.words.Perm m.words) (t : String) :
    Counterpart l m t (resolve l t) (resolve m t) := by
  by_cases hl : t ∈ l.words
  · rw [resolve_of_mem hl, resolve_of_mem (h.mem_iff.1 hl)]
    exact .word t
  · have hm : t ∉ m.words := fun hm => hl (h.mem_iff.2 hm)
    by_cases hshort : t.length < leastAbbreviation
    · rw [resolve_eq_of_resolution (.tooShort hl hshort),
        resolve_eq_of_resolution (.tooShort hm hshort)]
      exact .tooShort
    · exact counterpart_of_long h (Nat.not_lt.1 hshort) hl hm

/-- What a token stands for does not depend on the order of the list. -/
theorem standsFor_perm (h : l.words.Perm m.words) :
    StandsFor l t w ↔ StandsFor m t w := by
  have hboth := counterpart_resolve h t
  rw [← resolve_eq_ok_iff, ← resolve_eq_ok_iff]
  generalize resolve l t = a, resolve m t = b at hboth
  cases hboth <;> simp

theorem expandable_perm (h : l.words.Perm m.words) :
    Expandable l t ↔ Expandable m t := by
  rw [expandable_iff, expandable_iff]
  exact exists_congr fun w => standsFor_perm h

-- =========================================================== sentences

/-- The first token that fails is the same in every order. -/
theorem firstFailing_perm (h : l.words.Perm m.words) {ts : List String}
    {n : Nat} :
    FirstFailing (Expandable l) ts t n
      ↔ FirstFailing (Expandable m) ts t n := by
  have hsame : Expandable l = Expandable m :=
    funext fun _ => propext (expandable_perm h)
  rw [hsame]

/-- A sentence expands to the same text in every order. -/
theorem expand_eq_ok_perm (h : l.words.Perm m.words) {x : String} :
    expand l s = .ok x ↔ expand m s = .ok x := by
  have hsame : StandsFor l = StandsFor m :=
    funext fun _ => funext fun _ => propext (standsFor_perm h)
  rw [expand_eq_ok_iff, expand_eq_ok_iff, hsame]

/-- Two lists that hold the same words, each as often, but in any two
orders, expand the same sentences and to the same text. What the one
refuses the other refuses too, and for the same token: with the same
refusal, unless the token is ambiguous, when either gives the candidates
in its own order. -/
theorem expand_perm (h : l.words.Perm m.words) (s : String) :
    (∀ x, expand l s = .ok x ↔ expand m s = .ok x)
      ∧ ∀ e, expand l s = .error e →
          ∃ d t n, expand m s = .error d
            ∧ FirstFailing (Expandable l) (Text.tokens s) t n
            ∧ FirstFailing (Expandable m) (Text.tokens s) t n
            ∧ ((e = d ∧ (e = .tooShort t 4 ∨ e = .unknown t))
              ∨ (e = .ambiguous t (matching l t)
                ∧ d = .ambiguous t (matching m t)
                ∧ (matching l t).Perm (matching m t))) := by
  refine ⟨fun x => expand_eq_ok_perm h, fun e he => ?_⟩
  obtain ⟨t, n, hl, het⟩ :=
    resolveAll_eq_error_iff.1 (expand_eq_error_iff.1 he)
  have hm := (firstFailing_perm h).1 hl
  have hother {d : Error} (hd : resolve m t = .error d) :
      expand m s = .error d :=
    expand_eq_error_iff.2 ((resolveAll_of_firstFailing hm).2 hd)
  have hboth := counterpart_resolve h t
  rw [het] at hboth
  generalize hd : resolve m t = r at hboth
  cases hboth with
  | tooShort => exact ⟨_, t, n, hother hd, hl, hm, .inl ⟨rfl, .inl rfl⟩⟩
  | unknown => exact ⟨_, t, n, hother hd, hl, hm, .inl ⟨rfl, .inr rfl⟩⟩
  | ambiguous =>
      exact ⟨_, t, n, hother hd, hl, hm,
        .inr ⟨rfl, rfl, matching_perm h t⟩⟩

/-- Read backwards, a list with two thousand repeated words expands what
it did, and turns the candidates of an ambiguous token around. -/
theorem expand_perm_reversed :
    ∃ l m, WordList.ofWords paddedWords = .ok l
      ∧ WordList.ofWords paddedWords.reverse = .ok m
      ∧ expand m "zool" = .ok "zoology"
      ∧ expand l "stat abl"
        = .error (.ambiguous "stat" ["station", "statue"])
      ∧ expand m "stat abl"
        = .error (.ambiguous "stat" ["statue", "station"]) := by
  have hreverse : paddedWords.reverse.length = 2048 := by
    rw [List.length_reverse, length_paddedWords]
  obtain ⟨l, hl⟩ := WordList.exists_ofWords length_paddedWords
  obtain ⟨m, hm⟩ := WordList.exists_ofWords hreverse
  have hlwords : l.words = paddedWords := WordList.words_of_ofWords hl
  have hmwords : m.words = l.words.reverse := by
    rw [hlwords]
    exact WordList.words_of_ofWords hm
  have hperm : l.words.Perm m.words := by
    rw [hmwords]
    exact l.words.reverse_perm.symm
  have hturned : matching m "stat" = ["statue", "station"] := by
    unfold matching
    rw [hmwords, List.filter_reverse]
    show (matching l "stat").reverse = _
    rw [matching_stat hlwords]
    rfl
  have hzool : expand l "zool" = .ok "zoology" := by
    rw [expand_of_isToken (by decide)]
    exact resolve_zool hlwords
  have hstat : expand l "stat abl"
      = .error (.ambiguous "stat" ["station", "statue"]) := by
    have htokens : Text.tokens "stat abl" = ["stat", "abl"] := by
      decide +kernel
    rw [expand_eq_error_iff, htokens]
    exact resolveAll_cons_of_error (resolve_stat hlwords)
  obtain ⟨hsame, -⟩ := expand_perm hperm "zool"
  obtain ⟨-, hrefused⟩ := expand_perm hperm "stat abl"
  refine ⟨l, m, hl, hm, (hsame _).1 hzool, hstat, ?_⟩
  obtain ⟨d, t, n, hd, -, -, ⟨-, he | he⟩ | ⟨he, hturn, -⟩⟩ :=
    hrefused _ hstat
  · cases he
  · cases he
  · obtain ⟨rfl, -⟩ := Error.ambiguous.inj he
    rw [hd, hturn, hturned]

end Mnemonic.Sentence
