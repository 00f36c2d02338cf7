/-
Lists whose words are told apart by their first four characters, and
that the English list is one.

What the English words are like is read off their bytes, all of which
are lower-case letters (`englishWords_lowerCase`). A text whose bytes
are all ASCII has one character for each of them
(`toList_eq_map_bytesOf`), so the first four bytes, read as a number,
stand for the first four characters (`heading`). These numbers rise
along the table, as it is in alphabetical order and no beginning stands
in it twice (`headings_increasing`). So the table is evaluated on its
bytes, and all that is said of characters follows.
-/
import Mathlib.Data.List.Chain
import Mnemonic.Numeral.Bytes
import Mnemonic.Proofs.Text.Layout
import Mnemonic.Proofs.WordList.Lookup
import Mnemonic.WordList.English

namespace Mnemonic.WordList

open Numeral

/-- No two positions hold words of four characters or more that begin
with the same four. -/
def SetApart (l : WordList) : Prop :=
  ∀ p q : Fin 2048, 4 ≤ (l.word p).length → 4 ≤ (l.word q).length →
    (l.word p).toList.take 4 = (l.word q).toList.take 4 → p = q

-- ======================================================== ASCII words

/-- The bytes of a word. -/
def bytesOf (w : String) : List UInt8 := w.toByteArray.data.toList

/-- The first four bytes of a word as a number, with zeros behind the
word if it is shorter. -/
def heading (w : String) : Nat :=
  Bytes.value ((bytesOf w ++ List.replicate 4 0).take 4)

/-- A word of small Latin letters, at least one of them. -/
def LowerCase (w : String) : Prop :=
  bytesOf w ≠ [] ∧ ∀ b ∈ bytesOf w, 97 ≤ b.toNat ∧ b.toNat ≤ 122

instance (w : String) : Decidable (LowerCase w) :=
  @instDecidableAnd _ _ inferInstance
    (List.decidableBAll (fun b => 97 ≤ b.toNat ∧ b.toNat ≤ 122) (bytesOf w))

/-- Whether each number of a list is greater than the one before it, and
the first greater than a number given. Each is compared before the rest
is looked at, so that a long list can be evaluated. -/
def rises (n : Nat) : List Nat → Bool
  | [] => true
  | m :: ms => if n < m then rises m ms else false

variable {w v : String} {b : UInt8}

/-- Below 128 a byte is the encoding of the character with its
number. -/
theorem utf8EncodeChar_ofUInt8 (h : b.toNat < 128) :
    String.utf8EncodeChar (Char.ofUInt8 b) = [b] := by
  have hval : (Char.ofUInt8 b).val = b.toUInt32 := rfl
  have hone : (Char.ofUInt8 b).utf8Size = 1 := by
    rw [Char.utf8Size_eq_one_iff, hval, UInt32.le_iff_toNat_le,
      UInt8.toNat_toUInt32]
    exact Nat.le_of_lt_succ h
  rw [String.utf8EncodeChar_eq_singleton hone, hval,
    UInt8.toUInt8_toUInt32]

/-- Bytes of ASCII are characters. -/
theorem toList_eq_map_bytesOf (h : ∀ b ∈ bytesOf w, b.toNat < 128) :
    w.toList = (bytesOf w).map Char.ofUInt8 := by
  have hencode : ((bytesOf w).map Char.ofUInt8).flatMap
      String.utf8EncodeChar = bytesOf w := by
    rw [List.flatMap_map]
    calc (bytesOf w).flatMap (fun b =>
            String.utf8EncodeChar (Char.ofUInt8 b))
        = (bytesOf w).flatMap fun b => [b] :=
          List.flatMap_congr fun b hb => utf8EncodeChar_ofUInt8 (h b hb)
      _ = bytesOf w := List.flatMap_singleton' _
  -- a text is known by its bytes
  have hword : w = String.ofList ((bytesOf w).map Char.ofUInt8) := by
    apply String.toByteArray_inj.1
    rw [String.toByteArray_ofList]
    apply ByteArray.ext
    unfold List.utf8Encode
    rw [hencode, List.data_toByteArray]
    rfl
  rw [hword, String.toList_ofList, ← hword]

theorem toNat_ofUInt8 (b : UInt8) : (Char.ofUInt8 b).toNat = b.toNat :=
  UInt8.toNat_toUInt32 b

/-- Bytes with one character are one byte, since the character keeps the
number. -/
theorem ofUInt8_injective : Function.Injective Char.ofUInt8 := by
  intro b d h
  apply UInt8.toNat_inj.1
  rw [← toNat_ofUInt8 b, h, toNat_ofUInt8]

/-- A lower-case word can be read off its bytes. -/
theorem LowerCase.toList_eq (h : LowerCase w) :
    w.toList = (bytesOf w).map Char.ofUInt8 := by
  apply toList_eq_map_bytesOf
  intro b hb
  obtain ⟨-, hle⟩ := h.2 b hb
  omega

/-- A lower-case word has a byte for each letter. -/
theorem LowerCase.length_bytesOf (h : LowerCase w) :
    (bytesOf w).length = w.length := by
  rw [← String.length_toList, h.toList_eq, List.length_map]

/-- No small letter is a blank. -/
theorem isBlank_of_lowerCase {c : Char} (hge : 97 ≤ c.toNat)
    (hle : c.toNat ≤ 122) : Text.isBlank c = false := by
  rw [Bool.eq_false_iff]
  intro hblank
  obtain ⟨r, hr, hmin, hmax⟩ := Text.CharClass.contains_iff.1 hblank
  have hout : ∀ r ∈ Text.blank.ranges, r.2 < 97 ∨ 122 < r.1 := by decide
  rcases hout r hr with hlow | hhigh
  · omega
  · omega

/-- Lower-case words are tokens: they have a letter, and no letter is a
blank. -/
theorem LowerCase.isToken (h : LowerCase w) : Text.IsToken w := by
  refine ⟨?_, ?_⟩
  · rintro rfl
    exact h.1 rfl
  · intro c hc
    rw [h.toList_eq] at hc
    obtain ⟨b, hb, rfl⟩ := List.mem_map.1 hc
    obtain ⟨hge, hle⟩ := h.2 b hb
    rw [← toNat_ofUInt8] at hge hle
    exact isBlank_of_lowerCase hge hle

/-- Numbers that pass the check increase strictly from each to the
next. -/
theorem isChain_of_rises {n : Nat} {ms : List Nat}
    (h : rises n ms = true) : ms.IsChain (· < ·) := by
  have key : (n :: ms).IsChain (· < ·) := by
    induction ms generalizing n with
    | nil => exact .singleton n
    | cons m ms ih =>
        rw [rises] at h
        split at h
        · next hlt => exact .cons_cons hlt (ih h)
        · cases h
  exact key.tail

/-- Words of four characters or more that begin with the same four have
one heading. -/
theorem heading_eq_of_take_eq (hw : LowerCase w) (hv : LowerCase v)
    (hwlong : 4 ≤ w.length) (hvlong : 4 ≤ v.length)
    (h : w.toList.take 4 = v.toList.take 4) : heading w = heading v := by
  have htake : (bytesOf w).take 4 = (bytesOf v).take 4 := by
    rw [hw.toList_eq, hv.toList_eq, ← List.map_take, ← List.map_take] at h
    exact ofUInt8_injective.list_map h
  unfold heading
  rw [← hw.length_bytesOf] at hwlong
  rw [← hv.length_bytesOf] at hvlong
  rw [List.take_append_of_le_length hwlong,
    List.take_append_of_le_length hvlong, htake]

-- ====================================================== the English list

/-- The words of the table are checked letter by letter. -/
theorem englishWords_lowerCase : ∀ w ∈ englishWords, LowerCase w := by
  have hall : englishWords.all (fun w => decide (LowerCase w)) = true := by
    decide +kernel
  intro w hw
  exact of_decide_eq_true (List.all_eq_true.1 hall w hw)

/-- The table is in the order of its words' first four letters, without
a tie. -/
theorem headings_increasing :
    (englishWords.map heading).IsChain (· < ·) := by
  have hrises : rises 0 (englishWords.map heading) = true := by
    decide +kernel
  exact isChain_of_rises hrises

theorem nodup_headings : (englishWords.map heading).Nodup :=
  (List.isChain_iff_pairwise.1 headings_increasing).imp Nat.ne_of_lt

/-- No word of the table is repeated, since already its first four
letters are not. -/
theorem nodup_englishWords : englishWords.Nodup :=
  .of_map heading nodup_headings

/-- Every word of the English list can stand in a sentence. -/
theorem isToken_of_mem_english (h : w ∈ english.words) :
    Text.IsToken w :=
  (englishWords_lowerCase w h).isToken

/-- The English words are set apart: words with the same first four
letters have one heading, and no heading stands in the table twice. -/
theorem english_setApart : english.SetApart := by
  intro p q hp hq htake
  have hlower (g : Fin 2048) : LowerCase (english.word g) :=
    englishWords_lowerCase _ (english.word_mem g)
  have hhead :=
    heading_eq_of_take_eq (hlower p) (hlower q) hp hq htake
  have hword := List.inj_on_of_nodup_map nodup_headings
    (english.word_mem p) (english.word_mem q) hhead
  exact word_injective nodup_englishWords hword

end Mnemonic.WordList
