/-
What a message tells of its cause.

A message holds tokens and words of the list as they are, so that two
causes can have one text: a candidate may hold a comma, and what is
quoted may go on like the rest of another message. But what decoding and
expanding report quotes tokens, and a token ends in front of the first
blank, whatever quotation marks it holds. So the token can be told from
the message (`eq_of_quotes`), and the first letter tells whether it was
met in decoding or in expanding.

Nothing more has to be read off. What a token is refused with in
expanding is a function of the list and the token, the candidates
included; and in decoding the token comes with its place.
-/
import Std.Data.String.ToNat
import Mnemonic.Proofs.Sentence.Agreement
import Mnemonic.Proofs.Sentence.Candidates

namespace Mnemonic

-- ========================================================== quotations

namespace Text

variable {a t u s : String}

/-- Of a text that goes on with a space behind a part without blanks,
this part can be told. -/
theorem eq_of_append_space {u v x y : List Char}
    (hu : BlankFree u) (hv : BlankFree v)
    (h : u ++ ' ' :: x = v ++ ' ' :: y) : u = v := by
  have hcut {w z : List Char} (hw : BlankFree w) :
      (w ++ ' ' :: z).takeWhile (!isBlank ·) = w := by
    have hkept : ∀ c ∈ w, (!isBlank c) = true := by
      intro c hc
      rw [hw c hc]
      rfl
    rw [List.takeWhile_append_of_pos hkept,
      List.takeWhile_cons_of_neg (by decide), List.append_nil]
  rw [← hcut (z := x) hu, h, hcut hv]

/-- A text has a token in quotation marks behind its opening words, the
first of the marks being the last of these, and then a space. -/
def Quotes (a t s : String) : Prop :=
  ∃ x, s.toList = a.toList ++ (t.toList ++ '"' :: ' ' :: x)

theorem quotes_append {b : String} {x : List Char}
    (hb : b.toList = '"' :: ' ' :: x) (a t : String) :
    Quotes a t (a ++ t ++ b) := by
  refine ⟨x, ?_⟩
  rw [String.toList_append, String.toList_append, hb, List.append_assoc]

/-- What stands behind a quotation does not touch it. -/
theorem Quotes.append (h : Quotes a t s) (b : String) :
    Quotes a t (s ++ b) := by
  obtain ⟨x, hx⟩ := h
  refine ⟨x ++ b.toList, ?_⟩
  rw [String.toList_append, hx]
  simp only [List.append_assoc, List.cons_append]

/-- A text quotes one token only behind the same opening words. -/
theorem eq_of_quotes (ht : IsToken t) (hu : IsToken u)
    (h : Quotes a t s) (h' : Quotes a u s) : t = u := by
  have hfree {w : String} (hw : IsToken w) :
      BlankFree (w.toList ++ ['"']) := by
    intro c hc
    rcases List.mem_append.1 hc with hin | hmark
    · exact hw.blankFree c hin
    · rw [List.mem_singleton.1 hmark]
      decide
  obtain ⟨x, hx⟩ := h
  obtain ⟨y, hy⟩ := h'
  rw [hx, List.append_cancel_left_eq] at hy
  have hcut : (t.toList ++ ['"']) ++ ' ' :: x
      = (u.toList ++ ['"']) ++ ' ' :: y := by
    rw [List.append_assoc, List.append_assoc]
    exact hy
  have hquoted := eq_of_append_space (hfree ht) (hfree hu) hcut
  exact String.toList_inj.1 (List.append_cancel_right hquoted)

end Text

-- ================================================= the texts of causes

variable {e d : Error} {t u v w : String} {n m p q : Nat}

namespace Error

/-- The letter that a message begins with. -/
def initial : Error → Char
  | wordCount _ => 'i'
  | wordNotFound _ _ => 'w'
  | checksum => 'c'
  | listLength _ => 'w'
  | tooShort _ _ => 'p'
  | unknown _ => 'p'
  | ambiguous _ _ => 'p'

theorem head?_append {a b : String} {c : Char}
    (h : a.toList.head? = some c) : (a ++ b).toList.head? = some c := by
  rw [String.toList_append, List.head?_append, h, Option.some_or]

/-- A message begins with the letter of its kind of error. -/
theorem head?_message (e : Error) :
    e.message.toList.head? = some e.initial := by
  have hi : "invalid mnemonic: ".toList.head? = some 'i' := by
    decide +kernel
  have hw : "word \"".toList.head? = some 'w' := by decide +kernel
  have hl : "word list has ".toList.head? = some 'w' := by decide +kernel
  have hp : "prefix \"".toList.head? = some 'p' := by decide +kernel
  cases e with
  | wordCount n => exact head?_append (head?_append hi)
  | wordNotFound w p =>
      exact head?_append (head?_append (head?_append (head?_append hw)))
  | checksum => decide +kernel
  | listLength n => exact head?_append (head?_append hl)
  | tooShort t n =>
      exact head?_append (head?_append (head?_append (head?_append hp)))
  | unknown t => exact head?_append (head?_append hp)
  | ambiguous t ws => exact head?_append (head?_append (head?_append hp))

/-- Errors with one message have one initial. -/
theorem initial_eq (h : e.message = d.message) :
    e.initial = d.initial := by
  have hhead := head?_message e
  rw [h, head?_message] at hhead
  exact (Option.some.inj hhead).symm

/-- The number of tokens can be told from its message. -/
theorem wordCount_injective
    (h : (wordCount n).message = (wordCount m).message) : n = m := by
  have hdigits := (String.append_left_inj _).1 h
  exact Nat.repr_injective ((String.append_right_inj _).1 hdigits)

/-- The message about a missing word quotes the word. -/
theorem quotes_wordNotFound (w : String) (p : Nat) :
    Text.Quotes "word \"" w (wordNotFound w p).message := by
  have hbehind : "\" at position ".toList
      = '"' :: ' ' :: "at position ".toList := by
    decide +kernel
  exact ((Text.quotes_append hbehind _ w).append _).append _

/-- And so can a token that is not found, with its place. -/
theorem wordNotFound_injective (hw : Text.IsToken w)
    (hv : Text.IsToken v)
    (h : (wordNotFound w p).message = (wordNotFound v q).message) :
    w = v ∧ p = q := by
  have hquotes := quotes_wordNotFound w p
  rw [h] at hquotes
  obtain rfl := Text.eq_of_quotes hw hv hquotes (quotes_wordNotFound v q)
  have hdigits := (String.append_left_inj _).1 h
  exact ⟨rfl, Nat.repr_injective ((String.append_right_inj _).1 hdigits)⟩

end Error

namespace Sentence

variable {H : Hash} {l : WordList} {s x : String}

-- ========================================================= in decoding

/-- No error of decoding begins like those of expanding. -/
theorem initial_ne_of_outcome {ts : List String}
    (he : Outcome H l ts (.error e)) : e.initial ≠ 'p' := by
  rcases outcome_error_cases he with ⟨n, rfl⟩ | ⟨w, p, rfl⟩ | rfl
  all_goals simp [Error.initial]

/-- The messages of two refusals of decoding differ if the refusals
do. -/
theorem eq_of_message_eq_of_outcome
    (he : Outcome H l (Text.tokens s) (.error e))
    (hd : Outcome H l (Text.tokens x) (.error d))
    (h : e.message = d.message) : e = d := by
  have hinit := Error.initial_eq h
  rcases outcome_error_cases he with ⟨n, rfl⟩ | ⟨w, p, rfl⟩ | rfl
  · rcases outcome_error_cases hd with ⟨m, rfl⟩ | ⟨v, q, rfl⟩ | rfl
    · rw [Error.wordCount_injective h]
    · simp [Error.initial] at hinit
    · simp [Error.initial] at hinit
  · rcases outcome_error_cases hd with ⟨m, rfl⟩ | ⟨v, q, rfl⟩ | rfl
    · simp [Error.initial] at hinit
    · obtain ⟨-, hw⟩ := outcome_wordNotFound_iff.1 he
      obtain ⟨-, hv⟩ := outcome_wordNotFound_iff.1 hd
      obtain ⟨rfl, rfl⟩ := Error.wordNotFound_injective
        (Text.isToken_of_mem_tokens (List.mem_of_getElem? hw.at_place))
        (Text.isToken_of_mem_tokens (List.mem_of_getElem? hv.at_place)) h
      rfl
    · simp [Error.initial] at hinit
  · rcases outcome_error_cases hd with ⟨m, rfl⟩ | ⟨v, q, rfl⟩ | rfl
    · simp [Error.initial] at hinit
    · simp [Error.initial] at hinit
    · rfl

-- ======================================================== in expanding

/-- All errors of expanding begin alike. -/
theorem initial_of_resolve (h : resolve l t = .error e) :
    e.initial = 'p' := by
  rcases resolve_error_cases h with rfl | rfl | ⟨cs, rfl⟩
  · rfl
  · rfl
  · rfl

/-- What a token is refused with quotes the token. -/
theorem quotes_of_resolve (h : resolve l t = .error e) :
    Text.Quotes "prefix \"" t e.message := by
  rcases resolve_error_cases h with rfl | rfl | ⟨cs, rfl⟩
  · have hbehind : "\" is too short (minimum ".toList
        = '"' :: ' ' :: "is too short (minimum ".toList := by
      decide +kernel
    exact ((Text.quotes_append hbehind _ t).append _).append _
  · have hbehind : "\" does not match any word".toList
        = '"' :: ' ' :: "does not match any word".toList := by
      decide +kernel
    exact Text.quotes_append hbehind _ t
  · have hbehind : "\" is ambiguous, matches: ".toList
        = '"' :: ' ' :: "is ambiguous, matches: ".toList := by
      decide +kernel
    exact (Text.quotes_append hbehind _ t).append _

/-- The messages of two tokens' refusals differ if the refusals do, since
the tokens differ then. -/
theorem eq_of_message_eq_of_resolve (ht : Text.IsToken t)
    (hu : Text.IsToken u) (he : resolve l t = .error e)
    (hd : resolve l u = .error d) (h : e.message = d.message) : e = d := by
  have hquotes := quotes_of_resolve he
  rw [h] at hquotes
  obtain rfl := Text.eq_of_quotes ht hu hquotes (quotes_of_resolve hd)
  rw [he] at hd
  exact Except.error.inj hd

-- ============================================================ reported

/-- What some sentence is refused with over a list, by decoding it, with
the checksum byte or without, or by expanding it. -/
inductive Reported (H : Hash) (l : WordList) : Error → Prop where
  | decode {s : String} {e : Error} :
      decodeWith H l s = .error e → Reported H l e
  | decodeBytes {s : String} {e : Error} :
      decodeBytesWith H l s = .error e → Reported H l e
  | expand {s : String} {e : Error} :
      expand l s = .error e → Reported H l e

/-- What is reported is an end of decoding the tokens of a sentence or of
resolving one token. -/
theorem Reported.outcome_or_resolve (h : Reported H l e) :
    (∃ s, Outcome H l (Text.tokens s) (.error e))
      ∨ ∃ t, Text.IsToken t ∧ resolve l t = .error e := by
  cases h with
  | @decode s _ he => exact .inl ⟨s, decodeWith_eq_error_iff.1 he⟩
  | @decodeBytes s _ he =>
      rw [decodeBytesWith_eq_map, Error.map_eq_error_iff] at he
      exact .inl ⟨s, payloadWith_eq_iff.1 he⟩
  | expand he =>
      obtain ⟨t, n, hfirst, ht⟩ :=
        resolveAll_eq_error_iff.1 (expand_eq_error_iff.1 he)
      have hmem := List.mem_of_getElem? hfirst.at_place
      exact .inr ⟨t, Text.isToken_of_mem_tokens hmem, ht⟩

/-- Over one list the message identifies the refusal: whatever two
sentences are refused with, each in decoding or in expanding, is the same
if the two messages are the same text. -/
theorem eq_of_message_eq (he : Reported H l e) (hd : Reported H l d)
    (h : e.message = d.message) : e = d := by
  have hinit := Error.initial_eq h
  rcases he.outcome_or_resolve with ⟨s, he⟩ | ⟨t, ht, he⟩
  · rcases hd.outcome_or_resolve with ⟨x, hd⟩ | ⟨u, -, hd⟩
    · exact eq_of_message_eq_of_outcome he hd h
    · rw [initial_of_resolve hd] at hinit
      exact absurd hinit (initial_ne_of_outcome he)
  · rcases hd.outcome_or_resolve with ⟨x, hd⟩ | ⟨u, hu, hd⟩
    · rw [initial_of_resolve he] at hinit
      exact absurd hinit.symm (initial_ne_of_outcome hd)
    · exact eq_of_message_eq_of_resolve ht hu he hd h

/-- Candidates that the list does not give can be taken for others. -/
example : (Error.ambiguous "stat" ["station, statue"]).message
    = (Error.ambiguous "stat" ["station", "statue"]).message := by
  decide +kernel

/-- Two sentences with the same message, which each quotes the token that
stops both; and two that are refused for their number of tokens, one of
them with and one without the checksum byte. -/
theorem eq_of_message_eq_sharing :
    ∃ l, WordList.ofWords paddedWords = .ok l
      ∧ (∃ e d, expand l "stat 12\"" = .error e
        ∧ expand l "\tstat\u00a0is ambiguous," = .error d
        ∧ e.message
          = "prefix \"stat\" is ambiguous, matches: station, statue"
        ∧ e.message = d.message ∧ e = d)
      ∧ ∃ e d, decodeWith sha256 l "stat zool" = .error e
        ∧ decodeBytesWith sha256 l "\"2 words,\"" = .error d
        ∧ e.message = "invalid mnemonic: 2 words, must be 12, 15, 18, 21, or 24"
        ∧ e.message = d.message ∧ e = d := by
  obtain ⟨l, hl⟩ := WordList.exists_ofWords length_paddedWords
  have hstat := resolve_stat (WordList.words_of_ofWords hl)
  have hexpand (s : String) (rest : List String)
      (hs : Text.tokens s = "stat" :: rest) : expand l s
        = .error (.ambiguous "stat" ["station", "statue"]) := by
    rw [expand_eq_error_iff, hs]
    exact resolveAll_cons_of_error hstat
  have htwo {s : String} (hs : (Text.tokens s).length = 2) :
      payloadWith sha256 l s = .error (.wordCount 2) := by
    rw [payloadWith_eq_iff, outcome_wordCount_iff, hs]
    refine ⟨?_, rfl⟩
    unfold Supported
    decide
  refine ⟨l, hl, ?_, ?_⟩
  · have he : expand l "stat 12\"" = _ :=
      hexpand _ ["12\""] (by decide +kernel)
    have hd : expand l "\tstat\u00a0is ambiguous," = _ :=
      hexpand _ ["is", "ambiguous,"] (by decide +kernel)
    exact ⟨_, _, he, hd, by decide +kernel, rfl,
      eq_of_message_eq (.expand (H := sha256) he) (.expand hd) rfl⟩
  · have he : decodeWith sha256 l "stat zool" = .error (.wordCount 2) := by
      rw [decodeWith_eq_map, Error.map_eq_error_iff]
      exact htwo (by decide +kernel)
    have hd : decodeBytesWith sha256 l "\"2 words,\""
        = .error (.wordCount 2) := by
      rw [decodeBytesWith_eq_map, Error.map_eq_error_iff]
      exact htwo (by decide +kernel)
    exact ⟨_, _, he, hd, by decide +kernel, rfl,
      eq_of_message_eq (.decode he) (.decodeBytes hd) rfl⟩

end Sentence

end Mnemonic
