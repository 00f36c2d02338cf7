/-
The three ways to ask about a sentence give one answer.

Decoding to entropy, decoding to entropy with the checksum byte and
asking for validity each look at the payload of the sentence and show
another part of it (`decodeWith_eq_map`, `decodeBytesWith_eq_map`,
`validWith_eq_true_iff`). So they fail together and for the same cause.

When they do not fail, the payload is the one held by the packed number
of the tokens' positions. Its checksum byte is then three things at
once: the low bits of that number, what the digest of the entropy asks
for, and what is missing of the number once the entropy is known
(`sealed_of_checks`).
-/
import Mnemonic.Proofs.Sentence.Replacement

namespace Mnemonic.Sentence

open Numeral

variable {H : Hash} {l : WordList} {s : String}

-- ================================================ parts of one payload

/-- Decoding shows the entropy of the payload. -/
theorem decodeWith_eq_map :
    decodeWith H l s = (payloadWith H l s).map fun r => r.1.entropy := by
  unfold decodeWith
  cases payloadWith H l s <;> rfl

/-- Decoding to bytes shows the whole payload, and fails as decoding
does. -/
theorem decodeBytesWith_eq_map :
    decodeBytesWith H l s = (payloadWith H l s).map fun r => r.1.bytes := by
  unfold decodeBytesWith
  cases payloadWith H l s <;> rfl

/-- A sentence is valid if it has a payload, whichever that is. -/
theorem validWith_eq_true_iff :
    validWith H l s = true ↔ ∃ r, payloadWith H l s = .ok r := by
  unfold validWith
  cases payloadWith H l s with
  | error e =>
      refine ⟨fun h => ?_, fun h => ?_⟩
      · cases h
      · obtain ⟨r, hr⟩ := h
        cases hr
  | ok r => exact ⟨fun _ => ⟨r, rfl⟩, fun _ => rfl⟩

-- ==================================================== what they show

/-- A sentence is valid exactly if its tokens are as many as they should
be, all listed, and end in the right checksum bits. -/
theorem validWith_iff_checks :
    validWith H l s = true
      ↔ Supported (Text.tokens s).length ∧ l.Lists (Text.tokens s)
        ∧ Checks H (Text.tokens s).length (packed l (Text.tokens s)) := by
  rw [validWith_eq_true_iff]
  refine ⟨fun h => ?_, fun h => ?_⟩
  · obtain ⟨r, hr⟩ := h
    cases payloadWith_eq_iff.1 hr with
    | @accepted c hc hl hcheck =>
        exact ⟨supported_iff.2 ⟨c, hc⟩, hl, hcheck⟩
  · obtain ⟨hk, hl, hcheck⟩ := h
    obtain ⟨c, hc⟩ := supported_iff.1 hk
    exact ⟨_, payloadWith_eq_iff.2 (.accepted hc hl hcheck)⟩

/-- A payload that passes the check is its entropy sealed with the
checksum. -/
theorem sealed_of_checks {v : Nat} {c : WordCount}
    (h : Checks H c.words v) :
    Payload.held v c
      = Checksum.sealed H (Payload.held v c).entropy c := by
  unfold Checksum.sealed
  rw [(compute_held_iff v).2 h]

/-- The payload of a sentence that decodes holds its packed number and is
its entropy sealed with the checksum. -/
theorem exists_sealed_of_decodeWith {e : List UInt8}
    (he : decodeWith H l s = .ok e) :
    ∃ c : WordCount, c.words = (Text.tokens s).length
      ∧ l.Lists (Text.tokens s)
      ∧ payloadWith H l s = .ok (Checksum.sealed H e c, c)
      ∧ Payload.held (packed l (Text.tokens s)) c
        = Checksum.sealed H e c := by
  obtain ⟨hk, hl, hcheck, -⟩ := decodeWith_eq_ok_iff.1 he
  obtain ⟨c, hc⟩ := supported_iff.1 hk
  have hpay : payloadWith H l s
      = .ok (Payload.held (packed l (Text.tokens s)) c, c) :=
    payloadWith_eq_iff.2 (.accepted hc hl hcheck)
  rw [← hc] at hcheck
  have hentropy : (Payload.held (packed l (Text.tokens s)) c).entropy
      = e := by
    rw [decodeWith_eq_map, hpay] at he
    exact Except.ok.inj he
  have hsealed := sealed_of_checks hcheck
  rw [hentropy] at hsealed
  rw [hsealed] at hpay
  exact ⟨c, hc, hl, hpay, hsealed⟩

/-- Decoding to entropy, decoding to bytes and validity agree on every
sentence, and so do the causes for which decoding fails. The bytes are
the entropy with its checksum behind it, which writes the first bits of
the digest. The two together are the packed number of the positions,
that is, the sum of these by their places. -/
theorem decoders_agree (H : Hash) (l : WordList) (s : String) :
    let ts := Text.tokens s
    (validWith H l s = true ↔ ∃ e, decodeWith H l s = .ok e)
      ∧ ((∃ e, decodeWith H l s = .ok e)
          ↔ ∃ b, decodeBytesWith H l s = .ok b)
      ∧ (∀ err, decodeWith H l s = .error err
          ↔ decodeBytesWith H l s = .error err)
      ∧ ∀ e, decodeWith H l s = .ok e →
          ∃ (c : WordCount) (is : List UInt16),
            c.words = ts.length ∧ l.indices ts = .ok is
              ∧ decodeBytesWith H l s
                = .ok (e ++ [Checksum.compute H e c])
              ∧ e.length = 4 * c.words / 3
              ∧ (Checksum.compute H e c).toNat < 2 ^ (c.words / 3)
              ∧ Bits.ofNat (c.words / 3) (Checksum.compute H e c).toNat
                = (Bits.ofBytes (H e).toList).take (c.words / 3)
              ∧ Bytes.value e * 2 ^ (c.words / 3)
                  + (Checksum.compute H e c).toNat
                = Indices.pack is
              ∧ Indices.pack is
                = ∑ j : Fin is.length,
                    (is.get j).toNat * 2048 ^ (is.length - 1 - j.val) := by
  intro ts
  refine ⟨?_, ?_, fun err => ?_, fun e he => ?_⟩
  · rw [validWith_eq_true_iff, decodeWith_eq_map,
      Error.exists_map_eq_ok_iff]
  · rw [decodeWith_eq_map, decodeBytesWith_eq_map,
      Error.exists_map_eq_ok_iff, Error.exists_map_eq_ok_iff]
  · rw [decodeWith_eq_map, decodeBytesWith_eq_map,
      Error.map_eq_error_iff, Error.map_eq_error_iff]
  · obtain ⟨c, hc, hl, hpay, hsealed⟩ := exists_sealed_of_decodeWith he
    have hlen : (l.positions ts).length = c.words := by
      rw [WordList.length_positions hl, hc]
    have hfits := Payload.fits_held (packed l ts) c
    rw [hsealed] at hfits
    -- the payload is the sealed entropy, so its number is the packed one
    have hvalue := Payload.value_held
      (Payload.pack_lt_totalBits hlen (l.fits_positions ts))
    refine ⟨c, l.positions ts, hc, WordList.indices_of_lists hl, ?_, ?_,
      hfits.checksum, Checksum.bits_compute H e c, ?_,
      Indices.pack_eq_sum (l.fits_positions ts)⟩
    · rw [decodeBytesWith_eq_map, hpay]
      rfl
    · exact hfits.entropy.trans c.entropyBytes_eq
    · show Bytes.value (Checksum.sealed H e c).entropy * 2 ^ c.checksumBits
          + (Checksum.sealed H e c).checksum.toNat = packed l ts
      rw [← hsealed]
      exact hvalue

/-- Over a list with repeated and unusable words, zero bytes come with
the checksum byte three, which is all that is left of their number; a
sentence without tokens is refused as such. -/
theorem decoders_agree_awkward :
    validWith sha256 awkwardList "a a a a a a a a a a a d" = true
      ∧ decodeBytesWith sha256 awkwardList "a a a a a a a a a a a d"
        = .ok (List.replicate 16 0 ++ [3])
      ∧ (∃ is, awkwardList.indices (Text.tokens "a a a a a a a a a a a d")
          = .ok is ∧ Indices.pack is = 3)
      ∧ decodeBytesWith sha256 awkwardList "" = .error (.wordCount 0) := by
  obtain ⟨hvalid, -, -, hparts⟩ :=
    decoders_agree sha256 awkwardList "a a a a a a a a a a a d"
  obtain ⟨c, is, hc, his, hbytes, -, -, -, hvalue, -⟩ :=
    hparts _ decodeWith_zeros
  obtain rfl : c = .twelve := by
    apply WordCount.words_injective
    rw [hc, tokens_zeros]
    rfl
  have hsum : Checksum.compute sha256 (List.replicate 16 0) .twelve = 3 := by
    decide +kernel
  rw [hsum] at hbytes hvalue
  refine ⟨hvalid.2 ⟨_, decodeWith_zeros⟩, hbytes, ⟨is, his, ?_⟩, ?_⟩
  · rw [← hvalue, Bytes.value_replicate_zero]
    rfl
  · have hrefused : decodeWith sha256 awkwardList ""
        = .error (.wordCount 0) := by
      apply decodeWith_eq_error_iff.2
      apply Outcome.unsupported
      unfold Supported
      simp [Text.tokens]
    exact ((decoders_agree sha256 awkwardList "").2.2.1 _).1 hrefused

end Mnemonic.Sentence
