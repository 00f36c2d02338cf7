/-
Every way in which decoding a sentence can end.

`Outcome` lists the four ends, each with the condition on the tokens
under which it is reached: the number of tokens is none of the five; it
is, but some token is not on the list; all are, but the last bits are
not those of the digest; nothing is wrong. The conditions are stated of
the tokens, their positions and the bits these make, not of the steps of
decoding. Each of them leads to its end (`payloadWith_eq_of_outcome`),
and one of them always holds (`exists_outcome`), so decoding ends as the
relation says and in no other way (`payloadWith_eq_iff`).

The two guards inside splitting have no place in the relation: positions
that were found pack to a number no wider than the sentence, so that a
sentence of a supported length always has a payload.
-/
import Mnemonic.Proofs.Checksum
import Mnemonic.Proofs.Numeral.Positional
import Mnemonic.Proofs.WordList.Lookup
import Mnemonic.Sentence.Decode

namespace Mnemonic.Sentence

open Numeral

-- ===================================================== the conditions

/-- The numbers of words that a sentence can have. -/
def Supported (k : Nat) : Prop :=
  k = 12 ∨ k = 15 ∨ k = 18 ∨ k = 21 ∨ k = 24

/-- The number that the positions of some words write in base 2048. -/
def packed (l : WordList) (ts : List String) : Nat :=
  Indices.pack (l.positions ts)

/-- The bytes that `k` words carry in front of their last `k / 3` bits,
big-endian. -/
def carried (k v : Nat) : List UInt8 :=
  Bytes.ofNat (4 * k / 3) (v / 2 ^ (k / 3))

/-- The last `k / 3` bits are the first `k / 3` bits of the digest of
the bytes in front. -/
def Checks (H : Hash) (k v : Nat) : Prop :=
  v % 2 ^ (k / 3)
    = Bits.value ((Bits.ofBytes (H (carried k v)).toList).take (k / 3))

instance (H : Hash) (k v : Nat) : Decidable (Checks H k v) :=
  inferInstanceAs (Decidable (_ = _))

/-- The ends of decoding and what brings them about. -/
inductive Outcome (H : Hash) (l : WordList) (ts : List String) :
    Except Error (Payload × WordCount) → Prop where
  | unsupported :
      ¬ Supported ts.length → Outcome H l ts (.error (.wordCount ts.length))
  | missing {w : String} {p : Nat} :
      Supported ts.length → l.FirstMissing ts w p →
      Outcome H l ts (.error (.wordNotFound w p))
  | mismatch :
      Supported ts.length → l.Lists ts →
      ¬ Checks H ts.length (packed l ts) →
      Outcome H l ts (.error .checksum)
  | accepted {c : WordCount} :
      c.words = ts.length → l.Lists ts →
      Checks H ts.length (packed l ts) →
      Outcome H l ts (.ok (Payload.held (packed l ts) c, c))

/-- A sentence can have as many words as one of the five lengths. -/
theorem supported_iff {k : Nat} :
    Supported k ↔ ∃ c : WordCount, c.words = k := by
  unfold Supported
  refine ⟨fun h => ?_, fun h => ?_⟩
  · rcases h with rfl | rfl | rfl | rfl | rfl
    · exact ⟨.twelve, rfl⟩
    · exact ⟨.fifteen, rfl⟩
    · exact ⟨.eighteen, rfl⟩
    · exact ⟨.twentyOne, rfl⟩
    · exact ⟨.twentyFour, rfl⟩
  · obtain ⟨c, rfl⟩ := h
    cases c <;> simp [WordCount.words]

-- ========================================================== the steps

variable {H : Hash} {l : WordList} {s : String} {c : WordCount}

/-- A sentence splits into its tokens if they are as many as one of the
lengths has. -/
theorem split_of_words (hc : c.words = (Text.tokens s).length) :
    split s = .ok (Text.tokens s, c) := by
  have hcount : WordCount.ofCount (Text.tokens s).length = .ok c := by
    unfold WordCount.ofCount
    rw [← hc, WordCount.ofNat?_words]
  show (WordCount.ofCount (Text.tokens s).length >>= _) = _
  rw [hcount]
  rfl

/-- Any other number of tokens is refused with the number. -/
theorem split_of_unsupported (h : ¬ Supported (Text.tokens s).length) :
    split s = .error (.wordCount (Text.tokens s).length) := by
  have hnone : WordCount.ofNat? (Text.tokens s).length = none := by
    apply WordCount.ofNat?_eq_none_iff.2
    intro c hc
    exact h (supported_iff.2 ⟨c, hc⟩)
  have hcount : WordCount.ofCount (Text.tokens s).length
      = .error (.wordCount (Text.tokens s).length) := by
    unfold WordCount.ofCount
    rw [hnone]
  show (WordCount.ofCount (Text.tokens s).length >>= _) = _
  rw [hcount]
  rfl

/-- The entropy that a number holds is its high bits, as bytes. -/
theorem entropy_held (v : Nat) (c : WordCount) :
    (Payload.held v c).entropy = carried c.words v := by
  unfold Payload.held carried
  rw [c.entropyBytes_eq]
  rfl

/-- The checksum of a payload is right exactly if the number's last bits
are. -/
theorem compute_held_iff (v : Nat) :
    Checksum.compute H (Payload.held v c).entropy c
        = (Payload.held v c).checksum
      ↔ Checks H c.words v := by
  rw [← UInt8.toNat_inj, Checksum.toNat_compute,
    Payload.toNat_checksum_held, entropy_held]
  exact eq_comm

/-- Positions that were found never fail the guards of splitting. -/
theorem ofNat_packed {ts : List String} (hc : c.words = ts.length)
    (h : l.Lists ts) :
    Payload.ofNat (packed l ts) c
      = .ok (Payload.held (packed l ts) c) := by
  apply Payload.ofNat_pack
  · rw [WordList.length_positions h, hc]
  · exact l.fits_positions ts

theorem split_packed {ts : List String} (hc : c.words = ts.length)
    (h : l.Lists ts) :
    Payload.split (packed l ts) c
      = .ok (Payload.held (packed l ts) c) := by
  unfold Payload.split
  rw [ofNat_packed hc h]
  rfl

/-- What remains once all words are found is the checksum. -/
theorem payloadWith_of_lists (hc : c.words = (Text.tokens s).length)
    (h : l.Lists (Text.tokens s)) :
    payloadWith H l s
      = (Checksum.verify H
            (Payload.held (packed l (Text.tokens s)) c).entropy c
            (Payload.held (packed l (Text.tokens s)) c).checksum).map
          fun _ => (Payload.held (packed l (Text.tokens s)) c, c) := by
  unfold payloadWith
  rw [split_of_words hc]
  show (l.indices (Text.tokens s) >>= _) = _
  rw [WordList.indices_of_lists h]
  show (Payload.split (packed l (Text.tokens s)) c >>= _) = _
  rw [split_packed hc h]
  show (Checksum.verify .. >>= _) = _
  cases Checksum.verify H
    (Payload.held (packed l (Text.tokens s)) c).entropy c
    (Payload.held (packed l (Text.tokens s)) c).checksum <;> rfl

-- ======================================================== the outcome

/-- Each condition leads to its end. -/
theorem payloadWith_eq_of_outcome {r : Except Error (Payload × WordCount)}
    (h : Outcome H l (Text.tokens s) r) : payloadWith H l s = r := by
  cases h with
  | unsupported hk =>
      unfold payloadWith
      rw [split_of_unsupported hk]
      rfl
  | missing hk hw =>
      obtain ⟨c, hc⟩ := supported_iff.1 hk
      unfold payloadWith
      rw [split_of_words hc]
      show (l.indices (Text.tokens s) >>= _) = _
      rw [WordList.indices_eq_error_iff.2 ⟨_, _, hw, rfl⟩]
      rfl
  | mismatch hk hl hcheck =>
      obtain ⟨c, hc⟩ := supported_iff.1 hk
      rw [← hc, ← compute_held_iff] at hcheck
      rw [payloadWith_of_lists hc hl]
      unfold Checksum.verify
      rw [if_neg hcheck]
      rfl
  | accepted hc hl hcheck =>
      rw [← hc, ← compute_held_iff] at hcheck
      rw [payloadWith_of_lists hc hl]
      unfold Checksum.verify
      rw [if_pos hcheck]
      rfl

/-- One of the four conditions always holds. -/
theorem exists_outcome (H : Hash) (l : WordList) (ts : List String) :
    ∃ r, Outcome H l ts r := by
  by_cases hk : Supported ts.length
  · by_cases hl : l.Lists ts
    · by_cases hcheck : Checks H ts.length (packed l ts)
      · obtain ⟨c, hc⟩ := supported_iff.1 hk
        exact ⟨_, .accepted hc hl hcheck⟩
      · exact ⟨_, .mismatch hk hl hcheck⟩
    · obtain ⟨w, p, hw⟩ := WordList.exists_firstMissing hl
      exact ⟨_, .missing hk hw⟩
  · exact ⟨_, .unsupported hk⟩

/-- Decoding ends as its tokens have it end. -/
theorem payloadWith_eq_iff {r : Except Error (Payload × WordCount)} :
    payloadWith H l s = r ↔ Outcome H l (Text.tokens s) r := by
  refine ⟨fun h => ?_, payloadWith_eq_of_outcome⟩
  obtain ⟨r', hr'⟩ := exists_outcome H l (Text.tokens s)
  have heq : r' = r := by
    rw [← payloadWith_eq_of_outcome hr', h]
  rw [← heq]
  exact hr'

/-- Only the tokens of a sentence matter. -/
theorem payloadWith_congr {x : String}
    (h : Text.tokens s = Text.tokens x) :
    payloadWith H l s = payloadWith H l x := by
  rw [payloadWith_eq_iff, h]
  exact payloadWith_eq_iff.1 rfl

theorem decodeWith_congr {x : String}
    (h : Text.tokens s = Text.tokens x) :
    decodeWith H l s = decodeWith H l x := by
  unfold decodeWith
  rw [payloadWith_congr h]

theorem decodeBytesWith_congr {x : String}
    (h : Text.tokens s = Text.tokens x) :
    decodeBytesWith H l s = decodeBytesWith H l x := by
  unfold decodeBytesWith
  rw [payloadWith_congr h]

/-- Decoding fails as its tokens have it fail. -/
theorem decodeWith_eq_error_iff {e : Error} :
    decodeWith H l s = .error e ↔ Outcome H l (Text.tokens s) (.error e) := by
  rw [← payloadWith_eq_iff]
  unfold decodeWith
  cases payloadWith H l s with
  | error e' =>
      show Except.error e' = Except.error e ↔ _
      rw [Except.error.injEq, Except.error.injEq]
  | ok r =>
      show Except.ok r.1.entropy = Except.error e ↔ _
      refine ⟨fun h => ?_, fun h => ?_⟩
      · cases h
      · cases h

/-- Decoding succeeds exactly if nothing is wrong, and then with the
bytes in front of the checksum. -/
theorem decodeWith_eq_ok_iff {e : List UInt8} :
    decodeWith H l s = .ok e
      ↔ Supported (Text.tokens s).length ∧ l.Lists (Text.tokens s)
        ∧ Checks H (Text.tokens s).length (packed l (Text.tokens s))
        ∧ e = carried (Text.tokens s).length (packed l (Text.tokens s)) := by
  unfold decodeWith
  refine ⟨fun h => ?_, fun h => ?_⟩
  · obtain ⟨r, hr⟩ := exists_outcome H l (Text.tokens s)
    rw [payloadWith_eq_iff.2 hr] at h
    cases hr with
    | unsupported => cases h
    | missing => cases h
    | mismatch => cases h
    | @accepted c hc hl hcheck =>
        have he : (Payload.held (packed l (Text.tokens s)) c).entropy = e :=
          Except.ok.inj h
        rw [entropy_held, hc] at he
        exact ⟨supported_iff.2 ⟨c, hc⟩, hl, hcheck, he.symm⟩
  · obtain ⟨hk, hl, hcheck, he⟩ := h
    obtain ⟨c, hc⟩ := supported_iff.1 hk
    rw [payloadWith_eq_iff.2 (.accepted hc hl hcheck), he, ← hc,
      ← entropy_held]
    rfl

-- ============================================ which refusal, and when

variable {ts : List String}

theorem outcome_wordCount_iff {n : Nat} :
    Outcome H l ts (.error (.wordCount n))
      ↔ ¬ Supported ts.length ∧ n = ts.length := by
  refine ⟨fun h => ?_, fun h => ?_⟩
  · cases h with
    | unsupported hk => exact ⟨hk, rfl⟩
  · obtain ⟨hk, rfl⟩ := h
    exact .unsupported hk

theorem outcome_wordNotFound_iff {w : String} {p : Nat} :
    Outcome H l ts (.error (.wordNotFound w p))
      ↔ Supported ts.length ∧ l.FirstMissing ts w p := by
  refine ⟨fun h => ?_, fun h => ?_⟩
  · cases h with
    | missing hk hw => exact ⟨hk, hw⟩
  · obtain ⟨hk, hw⟩ := h
    exact .missing hk hw

theorem outcome_checksum_iff :
    Outcome H l ts (.error .checksum)
      ↔ Supported ts.length ∧ l.Lists ts
        ∧ ¬ Checks H ts.length (packed l ts) := by
  refine ⟨fun h => ?_, fun h => ?_⟩
  · cases h with
    | mismatch hk hl hcheck => exact ⟨hk, hl, hcheck⟩
  · obtain ⟨hk, hl, hcheck⟩ := h
    exact .mismatch hk hl hcheck

/-- There are no other refusals. -/
theorem outcome_error_cases {e : Error} (h : Outcome H l ts (.error e)) :
    (∃ n, e = .wordCount n) ∨ (∃ w p, e = .wordNotFound w p)
      ∨ e = .checksum := by
  cases h with
  | unsupported => exact Or.inl ⟨_, rfl⟩
  | missing => exact Or.inr (Or.inl ⟨_, _, rfl⟩)
  | mismatch => exact Or.inr (Or.inr rfl)

/-- Once the tokens are counted and found, splitting their number meets
no guard. -/
theorem ofNat_pack_of_indices {is : List UInt16}
    (hsplit : split s = .ok (Text.tokens s, c))
    (his : l.indices (Text.tokens s) = .ok is) :
    ∃ p, Payload.ofNat (Indices.pack is) c = .ok p := by
  obtain ⟨hl, rfl⟩ := WordList.indices_eq_ok_iff.1 his
  have hk : Supported (Text.tokens s).length := by
    by_contra hk
    rw [split_of_unsupported hk] at hsplit
    cases hsplit
  obtain ⟨d, hd⟩ := supported_iff.1 hk
  rw [split_of_words hd] at hsplit
  cases hsplit
  exact ⟨_, ofNat_packed hd hl⟩

/-- The packed number is the sum of the positions found, each by its
place in base 2048. -/
theorem packed_eq_sum {is : List UInt16} (his : l.indices ts = .ok is) :
    packed l ts
      = ∑ j : Fin is.length,
          (is.get j).toNat * 2048 ^ (is.length - 1 - j.val) := by
  obtain ⟨-, rfl⟩ := WordList.indices_eq_ok_iff.1 his
  exact Indices.pack_eq_sum (l.fits_positions ts)

/-- A number of tokens that no sentence has is refused as such, whatever
the tokens are. Else the first token that is not listed is refused, with
its place. Else the checksum is, unless it is right, and then the bytes
in front of it are the answer. The number on which this turns is the
sum of the positions found, each by its place. Nothing else is ever
refused, and splitting the packed number never meets a guard. -/
theorem decodeWith_classified (H : Hash) (l : WordList) (s : String) :
    let ts := Text.tokens s
    let k := ts.length
    (∀ n, decodeWith H l s = .error (.wordCount n)
        ↔ ¬ Supported k ∧ n = k)
      ∧ (∀ w p, decodeWith H l s = .error (.wordNotFound w p)
          ↔ Supported k ∧ ts[p]? = some w ∧ w ∉ l.words
            ∧ ∀ v ∈ ts.take p, v ∈ l.words)
      ∧ ((∃ w p, decodeWith H l s = .error (.wordNotFound w p))
          ↔ Supported k ∧ ∃ t ∈ ts, t ∉ l.words)
      ∧ (decodeWith H l s = .error .checksum
          ↔ Supported k ∧ (∀ t ∈ ts, t ∈ l.words)
            ∧ ¬ Checks H k (packed l ts))
      ∧ (∀ e, decodeWith H l s = .ok e
          ↔ Supported k ∧ (∀ t ∈ ts, t ∈ l.words)
            ∧ Checks H k (packed l ts) ∧ e = carried k (packed l ts))
      ∧ (∀ e, decodeWith H l s = .error e →
          (∃ n, e = .wordCount n) ∨ (∃ w p, e = .wordNotFound w p)
            ∨ e = .checksum)
      ∧ (∀ is, l.indices ts = .ok is →
          packed l ts
            = ∑ j : Fin is.length,
                (is.get j).toNat * 2048 ^ (is.length - 1 - j.val))
      ∧ ∀ c is, split s = .ok (ts, c) → l.indices ts = .ok is →
          ∃ p, Payload.ofNat (Indices.pack is) c = .ok p := by
  intro ts k
  refine ⟨fun n => ?_, fun w p => ?_, ?_, ?_,
    fun e => decodeWith_eq_ok_iff, fun e he => ?_,
    fun is his => packed_eq_sum his, fun c is hsplit his => ?_⟩
  · rw [decodeWith_eq_error_iff, outcome_wordCount_iff]
  · rw [decodeWith_eq_error_iff, outcome_wordNotFound_iff]
    refine ⟨fun h => ?_, fun h => ?_⟩
    · obtain ⟨hk, hw⟩ := h
      exact ⟨hk, hw.at_place, hw.missing, hw.listed_before⟩
    · obtain ⟨hk, hat, hmiss, hbefore⟩ := h
      exact ⟨hk, hat, hmiss, hbefore⟩
  · refine ⟨fun h => ?_, fun h => ?_⟩
    · obtain ⟨w, p, hw⟩ := h
      rw [decodeWith_eq_error_iff, outcome_wordNotFound_iff] at hw
      obtain ⟨hk, hfirst⟩ := hw
      exact ⟨hk, w, List.mem_of_getElem? hfirst.at_place, hfirst.missing⟩
    · obtain ⟨hk, t, ht, hmiss⟩ := h
      have hl : ¬ l.Lists ts := by
        intro hl
        exact hmiss (hl t ht)
      obtain ⟨w, p, hw⟩ := WordList.exists_firstMissing hl
      exact ⟨w, p, decodeWith_eq_error_iff.2 (.missing hk hw)⟩
  · -- that the tokens are listed is by definition that each is a word
    rw [decodeWith_eq_error_iff, outcome_checksum_iff]
    rfl
  · exact outcome_error_cases (decodeWith_eq_error_iff.1 he)
  · exact ofNat_pack_of_indices hsplit his

end Mnemonic.Sentence
