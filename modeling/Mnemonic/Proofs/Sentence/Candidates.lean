/-
What is decided by the words that a token begins.

The candidates of a token are the words it begins, one for each position
of the list. If the token is long enough and not itself on the list,
they settle what becomes of it, by being none, one or several
(`resolve_eq_unknown_iff_matching`, `resolve_eq_ok_iff_matching`,
`resolve_eq_ambiguous_iff_matching`).

With letters put behind a token some of its candidates remain, those
that begin with the longer token, and no other comes up
(`matching_of_begins`). Where the longer token is on the list it is one
of them. So what becomes of it can be told from the shorter token's
candidates, without the list.

It is positions that count here, and not words. Where the list repeats a
word, a token that begins this word alone has it for a candidate over
and over (`matching_of_singlesOut`), and is taken to be ambiguous.
-/
import Mathlib.Data.List.Count
import Mnemonic.Proofs.Sentence.Expansion
import Mnemonic.Proofs.Text.Layout

namespace Mnemonic.Sentence

variable {l : WordList} {t u v w : String} {cs : List String}
  {s : String}

-- ====================================================== a token by itself

/-- A token alone is a sentence that expands as the token resolves. -/
theorem expand_of_isToken (ht : Text.IsToken t) :
    expand l t = resolve l t := by
  unfold expand
  rw [Text.tokens_of_isToken ht]
  cases h : resolve l t with
  | error e =>
      rw [resolveAll_cons_of_error h]
      rfl
  | ok w =>
      have hone : Text.spaced [w] = w := by
        rw [Text.spaced_eq_intercalate]
        rfl
      rw [resolveAll_cons_of_ok h]
      show Except.ok (Text.spaced [w]) = _
      rw [hone]

/-- The candidates are the words of the list that the token begins. -/
theorem mem_matching :
    w ∈ matching l t ↔ w ∈ l.words ∧ t.toList <+: w.toList := by
  unfold matching
  rw [List.mem_filter, begins_iff]

section

variable (hlong : leastAbbreviation ≤ t.length) (hnot : t ∉ l.words)

include hlong hnot

/-- Without a candidate the token is unknown. -/
theorem resolve_eq_unknown_iff_matching :
    resolve l t = .error (.unknown v) ↔ matching l t = [] ∧ v = t := by
  rw [resolve_of_long hnot hlong, ← matching_eq_map]
  rcases matching l t with _ | ⟨a, _ | ⟨b, cs⟩⟩
  · simp [eq_comm]
  · simp
  · simp

/-- With one candidate it stands for this one. -/
theorem resolve_eq_ok_iff_matching :
    resolve l t = .ok w ↔ matching l t = [w] := by
  rw [resolve_of_long hnot hlong, ← matching_eq_map]
  rcases matching l t with _ | ⟨a, _ | ⟨b, cs⟩⟩
  · simp
  · simp
  · simp

/-- With more it is ambiguous between all of them, in their order. -/
theorem resolve_eq_ambiguous_iff_matching :
    resolve l t = .error (.ambiguous v cs)
      ↔ cs = matching l t ∧ 2 ≤ (matching l t).length ∧ v = t := by
  rw [resolve_of_long hnot hlong, ← matching_eq_map]
  rcases matching l t with _ | ⟨a, _ | ⟨b, ds⟩⟩
  · simp
  · simp
  · simp [eq_comm, and_comm]

/-- Long enough, a token is unknown, stands for a word or is
ambiguous. -/
theorem resolve_cases :
    resolve l t = .error (.unknown t) ∨ (∃ w, resolve l t = .ok w)
      ∨ ∃ cs, resolve l t = .error (.ambiguous t cs) := by
  rw [resolve_of_long hnot hlong, ← matching_eq_map]
  rcases matching l t with _ | ⟨a, _ | ⟨b, ds⟩⟩
  · exact Or.inl rfl
  · exact Or.inr (Or.inl ⟨a, rfl⟩)
  · exact Or.inr (Or.inr ⟨_, rfl⟩)

end

-- ============================================================= more letters

/-- The words that the longer of two tokens begins are found among those
that the shorter one begins. -/
theorem matching_of_begins (h : t.toList <+: u.toList) :
    matching l u = (matching l t).filter (begins u) := by
  unfold matching
  rw [List.filter_filter]
  refine List.filter_congr fun w _ => ?_
  cases hu : begins u w with
  | false => rfl
  | true =>
      have ht : begins t w = true :=
        begins_iff.2 (h.trans (begins_iff.1 hu))
      rw [ht]
      rfl

/-- And so is the longer token, if it is on the list. -/
theorem mem_words_iff_mem_matching (h : t.toList <+: u.toList) :
    u ∈ l.words ↔ u ∈ matching l t := by
  rw [mem_matching, and_iff_left h]

/-- Unless it is on the list, the longer token is settled by those of
the shorter one's candidates that it begins. -/
theorem resolve_longer (hlong : 4 ≤ t.length)
    (h : t.toList <+: u.toList) (hcs : matching l t = cs)
    (hu : u ∉ cs) :
    (cs.filter (begins u) = [] → resolve l u = .error (.unknown u))
      ∧ (∀ w, cs.filter (begins u) = [w] → resolve l u = .ok w)
      ∧ (2 ≤ (cs.filter (begins u)).length →
          resolve l u
            = .error (.ambiguous u (cs.filter (begins u)))) := by
  have hulong : leastAbbreviation ≤ u.length :=
    hlong.trans (length_le_of_begins h)
  rw [← hcs, ← mem_words_iff_mem_matching h] at hu
  rw [← hcs, ← matching_of_begins h]
  refine ⟨fun hnone => ?_, fun w hone => ?_, fun hmany => ?_⟩
  · exact (resolve_eq_unknown_iff_matching hulong hu).2 ⟨hnone, rfl⟩
  · exact (resolve_eq_ok_iff_matching hulong hu).2 hone
  · exact (resolve_eq_ambiguous_iff_matching hulong hu).2
      ⟨rfl, hmany, rfl⟩

/-- Where the shorter token begins one word, the longer one stands for
it or for nothing. -/
theorem resolve_longer_of_single (hlong : 4 ≤ t.length)
    (h : t.toList <+: u.toList) (hw : matching l t = [w]) :
    (u.toList <+: w.toList → resolve l u = .ok w)
      ∧ (¬ u.toList <+: w.toList →
          resolve l u = .error (.unknown u)) := by
  refine ⟨fun hbegins => ?_, fun hnot => ?_⟩
  · by_cases huw : u = w
    · -- all letters of the word are there
      subst huw
      apply resolve_of_mem
      rw [mem_words_iff_mem_matching h, hw]
      exact List.mem_singleton_self u
    · have hmiss : u ∉ [w] := List.mem_singleton.not.2 huw
      have hkeep : [w].filter (begins u) = [w] :=
        List.filter_cons_of_pos (begins_iff.2 hbegins)
      exact (resolve_longer hlong h hw hmiss).2.1 w hkeep
  · have hmiss : u ∉ [w] := by
      rw [List.mem_singleton]
      rintro rfl
      exact hnot List.prefix_rfl
    have hdrop : [w].filter (begins u) = [] :=
      List.filter_cons_of_neg (begins_iff.not.2 hnot)
    exact (resolve_longer hlong h hw hmiss).1 hdrop

/-- Letters put behind an abbreviation only narrow what it can mean. Of
what the shorter token ends in, unknown stays unknown; the one word
stays as long as the longer token begins it; and of several candidates
those stay that begin with the longer token, which stands for itself if
it is one of them. -/
theorem expand_longer (hlong : 4 ≤ t.length) (hnot : t ∉ l.words)
    (hu : Text.IsToken u) (h : t.toList <+: u.toList) :
    (expand l t = .error (.unknown t) ∨ (∃ w, expand l t = .ok w)
        ∨ ∃ cs, expand l t = .error (.ambiguous t cs))
      ∧ (∀ v, expand l t = .error (.unknown v) →
          expand l u = .error (.unknown u))
      ∧ (∀ w, expand l t = .ok w →
          (u.toList <+: w.toList → expand l u = .ok w)
            ∧ (¬ u.toList <+: w.toList →
                expand l u = .error (.unknown u)))
      ∧ ∀ v cs, expand l t = .error (.ambiguous v cs) →
          let cs' := cs.filter (begins u)
          (u ∈ cs → expand l u = .ok u)
            ∧ (u ∉ cs →
                (cs' = [] → expand l u = .error (.unknown u))
                  ∧ (∀ w, cs' = [w] → expand l u = .ok w)
                  ∧ (2 ≤ cs'.length →
                      expand l u = .error (.ambiguous u cs'))) := by
  have hne : t ≠ "" := by
    rintro rfl
    cases hlong
  -- both are single tokens, so expanding is resolving
  rw [expand_of_isToken (hu.of_begins hne h), expand_of_isToken hu]
  refine ⟨resolve_cases hlong hnot, fun v hv => ?_, fun w hw => ?_,
    fun v cs hcs => ?_⟩
  · obtain ⟨hnone, -⟩ := (resolve_eq_unknown_iff_matching hlong hnot).1 hv
    exact (resolve_longer hlong h hnone List.not_mem_nil).1 rfl
  · have hone := (resolve_eq_ok_iff_matching hlong hnot).1 hw
    exact resolve_longer_of_single hlong h hone
  · obtain ⟨rfl, -, -⟩ :=
      (resolve_eq_ambiguous_iff_matching hlong hnot).1 hcs
    refine ⟨fun hlisted => ?_, resolve_longer hlong h rfl⟩
    exact resolve_of_mem ((mem_words_iff_mem_matching h).2 hlisted)

-- ============================================ over words that share letters

/-- The empty words at the other positions are begun by no token. -/
theorem matching_padded (hl : l.words = paddedWords) (ht : t ≠ "") :
    matching l t = sharingWords.filter (begins t) := by
  have hempty : ¬ begins t "" = true := by
    rw [begins_iff]
    intro h
    exact ht (String.toList_eq_nil_iff.1 (List.prefix_nil.1 h))
  unfold matching
  rw [hl]
  unfold paddedWords
  rw [List.filter_append, List.filter_replicate_of_neg hempty,
    List.append_nil]

theorem stat_not_mem (hl : l.words = paddedWords) : "stat" ∉ l.words := by
  rw [hl, mem_paddedWords]
  decide

theorem zool_not_mem (hl : l.words = paddedWords) : "zool" ∉ l.words := by
  rw [hl, mem_paddedWords]
  decide

theorem matching_stat (hl : l.words = paddedWords) :
    matching l "stat" = ["station", "statue"] := by
  rw [matching_padded hl (by decide)]
  decide +kernel

theorem matching_zool (hl : l.words = paddedWords) :
    matching l "zool" = ["zoology"] := by
  rw [matching_padded hl (by decide)]
  decide +kernel

theorem resolve_stat (hl : l.words = paddedWords) :
    resolve l "stat"
      = .error (.ambiguous "stat" ["station", "statue"]) := by
  rw [resolve_eq_ambiguous_iff_matching (by decide) (stat_not_mem hl),
    matching_stat hl]
  exact ⟨rfl, by decide, rfl⟩

theorem resolve_zool (hl : l.words = paddedWords) :
    resolve l "zool" = .ok "zoology" := by
  rw [resolve_eq_ok_iff_matching (by decide) (zool_not_mem hl),
    matching_zool hl]

/-- Of two candidates the fifth letter leaves one, and a candidate typed
in full is that candidate; a wrong letter leaves none. -/
theorem expand_longer_sharing :
    ∃ l, WordList.ofWords paddedWords = .ok l
      ∧ expand l "stat"
        = .error (.ambiguous "stat" ["station", "statue"])
      ∧ expand l "stati" = .ok "station"
      ∧ expand l "statue" = .ok "statue"
      ∧ expand l "zool" = .ok "zoology"
      ∧ expand l "zools" = .error (.unknown "zools") := by
  obtain ⟨l, hl⟩ := WordList.exists_ofWords length_paddedWords
  have hwords : l.words = paddedWords := WordList.words_of_ofWords hl
  have hstat : expand l "stat"
      = .error (.ambiguous "stat" ["station", "statue"]) := by
    rw [expand_of_isToken (by decide)]
    exact resolve_stat hwords
  have hzool : expand l "zool" = .ok "zoology" := by
    rw [expand_of_isToken (by decide)]
    exact resolve_zool hwords
  have hlonger (u : String) (hu : Text.IsToken u)
      (h : "stat".toList <+: u.toList) :=
    (expand_longer (by decide) (stat_not_mem hwords) hu h).2.2.2 _ _ hstat
  have hwrong :=
    (expand_longer (u := "zools") (by decide) (zool_not_mem hwords)
      (by decide) (by decide)).2.2.1 _ hzool
  refine ⟨l, hl, hstat, ?_, ?_, hzool, ?_⟩
  · obtain ⟨-, hrest⟩ := hlonger "stati" (by decide) (by decide)
    exact (hrest (by decide)).2.1 _ (by decide +kernel)
  · exact (hlonger "statue" (by decide) (by decide)).1 (by decide)
  · exact hwrong.2 (by decide)

-- ========================================================== repeated words

/-- A token that is no word of the list, but is long enough, begins one
word of the list and no other, at whatever positions that stands. -/
structure SinglesOut (l : WordList) (t w : String) : Prop where
  long : 4 ≤ t.length
  unlisted : t ∉ l.words
  listed : w ∈ l.words
  begins : t.toList <+: w.toList
  only : ∀ v ∈ l.words, t.toList <+: v.toList → v = w

/-- The candidates are the one word, as often as the list holds it. -/
theorem matching_of_singlesOut (h : SinglesOut l t w) :
    matching l t = List.replicate (l.words.count w) w := by
  rw [← List.filter_beq]
  refine List.filter_congr fun v hv => ?_
  rw [Bool.eq_iff_iff, begins_iff, beq_iff_eq]
  refine ⟨h.only v hv, ?_⟩
  rintro rfl
  exact h.begins

/-- A token whose candidates are all the same singles that word out. -/
theorem singlesOut_of_matching (hlong : 4 ≤ t.length)
    (hnot : t ∉ l.words) (hw : w ∈ matching l t)
    (hsame : ∀ v ∈ matching l t, v = w) : SinglesOut l t w := by
  obtain ⟨hlisted, hbegins⟩ := mem_matching.1 hw
  refine ⟨hlong, hnot, hlisted, hbegins, fun v hv hvbegins => ?_⟩
  exact hsame v (mem_matching.2 ⟨hv, hvbegins⟩)

/-- A token that singles out a word stands for it exactly if the word is
not repeated. -/
theorem resolve_eq_ok_of_singlesOut_iff (h : SinglesOut l t w) :
    resolve l t = .ok w ↔ l.words.count w = 1 := by
  rw [resolve_eq_ok_iff_matching h.long h.unlisted,
    matching_of_singlesOut h]
  refine ⟨fun hone => ?_, fun hone => ?_⟩
  · have hlen := congrArg List.length hone
    rwa [List.length_replicate] at hlen
  · rw [hone]
    rfl

/-- If the word is repeated, the token is refused as ambiguous between
as many copies of it. -/
theorem resolve_eq_ambiguous_of_singlesOut_iff (h : SinglesOut l t w) :
    resolve l t
        = .error (.ambiguous t (List.replicate (l.words.count w) w))
      ↔ 2 ≤ l.words.count w := by
  rw [resolve_eq_ambiguous_iff_matching h.long h.unlisted,
    matching_of_singlesOut h, List.length_replicate]
  exact ⟨fun hmany => hmany.2.1, fun hmany => ⟨rfl, hmany, rfl⟩⟩

/-- Whatever the sentence, what is called ambiguous is long enough, not
on the list and begins the words at several positions. -/
theorem matching_of_expand_ambiguous
    (h : expand l s = .error (.ambiguous t cs)) :
    4 ≤ t.length ∧ t ∉ l.words ∧ cs = matching l t ∧ 2 ≤ cs.length := by
  obtain ⟨u, n, hfirst, hu⟩ :=
    resolveAll_eq_error_iff.1 (expand_eq_error_iff.1 h)
  have hnot : u ∉ l.words := not_mem_of_not_expandable hfirst.fails
  rcases resolve_error_cases hu with he | he | ⟨ds, he⟩
  · cases he
  · cases he
  · obtain ⟨rfl, -⟩ := Error.ambiguous.inj he
    obtain ⟨hlong, -⟩ := (resolve_eq_ambiguous_iff hnot).1 hu
    obtain ⟨hcs, hmany, -⟩ :=
      (resolve_eq_ambiguous_iff_matching hlong hnot).1 hu
    rw [← hcs] at hmany
    exact ⟨hlong, hnot, hcs, hmany⟩

/-- A token that singles out a word expands to it exactly if the list
holds the word once; if it holds the word repeatedly, the token is
called ambiguous, with copies of the word for candidates. In every other
case of ambiguity two candidates differ. -/
theorem expand_singled_out (l : WordList) :
    (∀ t w, Text.IsToken t → SinglesOut l t w →
        (expand l t = .ok w ↔ l.words.count w = 1)
          ∧ (expand l t
                = .error (.ambiguous t
                    (List.replicate (l.words.count w) w))
              ↔ 2 ≤ l.words.count w))
      ∧ ∀ s t cs, expand l s = .error (.ambiguous t cs) →
          (∃ u ∈ cs, ∃ v ∈ cs, u ≠ v)
            ∨ ∃ w, SinglesOut l t w ∧ 2 ≤ l.words.count w
                ∧ cs = List.replicate (l.words.count w) w := by
  refine ⟨fun t w ht h => ?_, fun s t cs h => ?_⟩
  · rw [expand_of_isToken ht]
    exact ⟨resolve_eq_ok_of_singlesOut_iff h,
      resolve_eq_ambiguous_of_singlesOut_iff h⟩
  · obtain ⟨hlong, hnot, hcs, hmany⟩ := matching_of_expand_ambiguous h
    obtain ⟨w, hw⟩ : ∃ w, w ∈ cs :=
      List.exists_mem_of_length_pos (by omega)
    -- either all candidates are copies of one word, or two of them differ
    by_cases hsame : ∀ v ∈ cs, v = w
    · rw [hcs] at hw hsame
      have hsingle := singlesOut_of_matching hlong hnot hw hsame
      rw [matching_of_singlesOut hsingle] at hcs
      rw [hcs, List.length_replicate] at hmany
      exact Or.inr ⟨w, hsingle, hmany, hcs⟩
    · obtain ⟨v, hv⟩ := not_forall.1 hsame
      obtain ⟨hv, hne⟩ := Classical.not_imp.1 hv
      exact Or.inl ⟨v, hv, w, hw, hne⟩

/-- A word that stands once is expanded to, and what is ambiguous among
different words has candidates that differ. -/
theorem expand_singled_out_sharing :
    ∃ l, WordList.ofWords paddedWords = .ok l
      ∧ l.words.count "zoology" = 1
      ∧ expand l "zool" = .ok "zoology"
      ∧ ∃ cs, expand l "zoo stat" = .error (.ambiguous "stat" cs)
        ∧ ∃ u ∈ cs, ∃ v ∈ cs, u ≠ v := by
  obtain ⟨l, hl⟩ := WordList.exists_ofWords length_paddedWords
  have hwords : l.words = paddedWords := WordList.words_of_ofWords hl
  have hsingle : SinglesOut l "zool" "zoology" := by
    apply singlesOut_of_matching (by decide) (zool_not_mem hwords)
    · rw [matching_zool hwords]
      exact List.mem_singleton_self _
    · rw [matching_zool hwords]
      exact fun v hv => List.mem_singleton.1 hv
  have hcount : l.words.count "zoology" = 1 := by
    rw [hwords]
    decide +kernel
  have hambiguous : expand l "zoo stat"
      = .error (.ambiguous "stat" ["station", "statue"]) := by
    have htokens : Text.tokens "zoo stat" = ["zoo", "stat"] := by
      decide +kernel
    have hzoo : Expandable l "zoo" := by
      left
      rw [hwords, mem_paddedWords]
      decide
    rw [expand_eq_error_iff, htokens, resolveAll_eq_error_iff]
    exact ⟨"stat", 1, (firstFailing_cons_succ hzoo).2
      (firstFailing_of_error [] (resolve_stat hwords)),
      resolve_stat hwords⟩
  obtain ⟨hone, hmany⟩ := expand_singled_out l
  refine ⟨l, hl, hcount, ?_, _, hambiguous, ?_⟩
  · exact (hone _ _ (by decide) hsingle).1.2 hcount
  · rcases hmany _ _ _ hambiguous with hdiffer | ⟨w, hw, -⟩
    · exact hdiffer
    · -- the beginning of two words singles out neither
      have honly : ∀ v ∈ matching l "stat", v = w := by
        intro v hv
        obtain ⟨hlisted, hbegins⟩ := mem_matching.1 hv
        exact hw.only v hlisted hbegins
      rw [matching_stat hwords] at honly
      have hstation : "station" = w := honly _ (by decide)
      have hstatue : "statue" = w := honly _ (by decide)
      exact absurd (hstation.trans hstatue.symm) (by decide)

/-- One word twice and the empty word at all the other positions. -/
def twinWords : List String :=
  "station" :: "station" :: List.replicate 2046 ""

theorem length_twinWords : twinWords.length = 2048 := by
  show (List.replicate 2046 "").length + 2 = 2048
  rw [List.length_replicate]

/-- The token begins one word and no other, and is called ambiguous all
the same, among candidates that do not differ. -/
theorem repeated_word_ambiguous :
    ∃ l, WordList.ofWords twinWords = .ok l
      ∧ SinglesOut l "stat" "station"
      ∧ expand l "stat" ≠ .ok "station"
      ∧ expand l "stat"
        = .error (.ambiguous "stat" ["station", "station"])
      ∧ ¬ ∃ u ∈ ["station", "station"], ∃ v ∈ ["station", "station"],
          u ≠ v := by
  obtain ⟨l, hl⟩ := WordList.exists_ofWords length_twinWords
  have hwords : l.words = twinWords := WordList.words_of_ofWords hl
  have hnot : "stat" ∉ l.words := by
    rw [hwords]
    unfold twinWords
    rw [List.mem_cons, List.mem_cons, List.mem_replicate]
    decide
  have hmatching : matching l "stat" = ["station", "station"] := by
    have hempty : ¬ begins "stat" "" = true := by decide
    unfold matching
    rw [hwords]
    unfold twinWords
    rw [List.filter_cons_of_pos (by decide),
      List.filter_cons_of_pos (by decide),
      List.filter_replicate_of_neg hempty]
  have hambiguous : expand l "stat"
      = .error (.ambiguous "stat" ["station", "station"]) := by
    rw [expand_of_isToken (by decide),
      resolve_eq_ambiguous_iff_matching (by decide) hnot, hmatching]
    exact ⟨rfl, by decide, rfl⟩
  refine ⟨l, hl, ?_, ?_, hambiguous, by simp⟩
  · apply singlesOut_of_matching (by decide) hnot
    · rw [hmatching]
      exact List.mem_cons_self
    · rw [hmatching]
      simp
  · rw [hambiguous]
    intro h
    cases h

end Mnemonic.Sentence
