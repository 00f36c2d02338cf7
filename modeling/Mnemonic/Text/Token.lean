/-
Tokens: the longest runs of characters without a blank. A sentence is
read from its end. The scan carries the token that is still open on the
left and the tokens already closed; a blank closes the open one. What
the blanks are, how many stand together and whether some stand at the
ends leaves no trace in the tokens.

The second half joins tokens by single spaces, the form in which
expanded sentences are written.
-/
import Mnemonic.Text.Blank

namespace Mnemonic.Text

-- ==================================================== the scan

/-- Puts the open token in front of the closed ones, unless it is
empty. -/
def close (w : List Char) (ts : List (List Char)) : List (List Char) :=
  if w.isEmpty then ts else w :: ts

/-- Reads one character on the left of an open token and closed
tokens. -/
def scanStep (c : Char) (st : List Char × List (List Char)) :
    List Char × List (List Char) :=
  if isBlank c then ([], close st.1 st.2) else (c :: st.1, st.2)

/-- The token open at the left end of a text, and the tokens behind
it. -/
def scan (s : List Char) : List Char × List (List Char) :=
  s.foldr scanStep ([], [])

def tokensOf (s : List Char) : List (List Char) :=
  close (scan s).1 (scan s).2

/-- The tokens of a sentence, in order. -/
def tokens (s : String) : List String :=
  (tokensOf s.toList).map String.ofList

@[simp] theorem close_nil (ts : List (List Char)) : close [] ts = ts := rfl

@[simp] theorem close_cons (c : Char) (w : List Char) (ts : List (List Char)) :
    close (c :: w) ts = (c :: w) :: ts := rfl

@[simp] theorem scan_nil : scan [] = ([], []) := rfl

/-- A blank closes the token in hand. -/
theorem scan_blank {c : Char} (s : List Char) (h : isBlank c = true) :
    scan (c :: s) = ([], tokensOf s) := by
  simp [scan, scanStep, tokensOf, h]

/-- A letter goes in front of the token in hand. -/
theorem scan_letter {c : Char} (s : List Char) (h : isBlank c = false) :
    scan (c :: s) = (c :: (scan s).1, (scan s).2) := by
  simp [scan, scanStep, h]

@[simp] theorem tokensOf_nil : tokensOf [] = [] := rfl

theorem tokensOf_blank {c : Char} (s : List Char) (h : isBlank c = true) :
    tokensOf (c :: s) = tokensOf s := by
  simp [tokensOf, scan_blank s h]

/-- A blank closes what is open on its left: the tokens behind it are
those of the text behind it. -/
theorem scan_append_blank {c : Char} (x y : List Char) (hc : isBlank c = true) :
    scan (x ++ c :: y) = ((scan x).1, (scan x).2 ++ tokensOf y) := by
  induction x with
  | nil => simp [scan_blank y hc]
  | cons a x ih =>
      cases ha : isBlank a with
      | true =>
          rw [List.cons_append, scan_blank _ ha, scan_blank _ ha, tokensOf, ih]
          simp only [close, tokensOf]
          split <;> rfl
      | false => rw [List.cons_append, scan_letter _ ha, scan_letter _ ha, ih]

/-- Tokens part at a blank: those of a text are the ones in front of the
blank and the ones behind it. -/
theorem tokensOf_append_blank {c : Char} (x y : List Char) (hc : isBlank c = true) :
    tokensOf (x ++ c :: y) = tokensOf x ++ tokensOf y := by
  rw [tokensOf, scan_append_blank x y hc]
  simp only [close]
  split <;> simp_all [tokensOf, close]

/-- A text without blanks is open to the left as a whole. -/
theorem scan_of_blankFree {w : List Char} (hw : BlankFree w) :
    scan w = (w, []) := by
  induction w with
  | nil => rfl
  | cons a w ih =>
      have ha : isBlank a = false := hw a (by simp)
      have hrest : BlankFree w := fun x hx => hw x (by simp [hx])
      rw [scan_letter _ ha, ih hrest]

/-- A text without blanks is one token, unless it is empty. -/
theorem tokensOf_of_blankFree {w : List Char} (hne : w ≠ []) (hw : BlankFree w) :
    tokensOf w = [w] := by
  rw [tokensOf, scan_of_blankFree hw, close]
  simp [hne]

/-- A blank text has no tokens. -/
theorem tokensOf_of_allBlank {s : List Char} (hs : AllBlank s) :
    tokensOf s = [] := by
  induction s with
  | nil => rfl
  | cons c s ih =>
      rw [tokensOf_blank s (hs c (by simp))]
      exact ih fun x hx => hs x (by simp [hx])

/-- No token is empty, and none holds a blank. -/
theorem of_mem_tokensOf {s : List Char} :
    ∀ w ∈ tokensOf s, w ≠ [] ∧ BlankFree w := by
  -- The scan keeps both facts: its open token is blank-free, its closed
  -- ones are tokens.
  have key : BlankFree (scan s).1 ∧ ∀ w ∈ (scan s).2, w ≠ [] ∧ BlankFree w := by
    induction s with
    | nil => simp [BlankFree]
    | cons c s ih =>
        cases hc : isBlank c with
        | true =>
            rw [scan_blank s hc]
            refine ⟨by simp [BlankFree], ?_⟩
            unfold tokensOf close
            split
            · exact ih.2
            · rename_i hne
              intro w hw
              rcases List.mem_cons.1 hw with rfl | hw
              · exact ⟨by simpa using hne, ih.1⟩
              · exact ih.2 w hw
        | false =>
            rw [scan_letter s hc]
            refine ⟨?_, ih.2⟩
            intro x hx
            rcases List.mem_cons.1 hx with rfl | hx
            · exact hc
            · exact ih.1 x hx
  unfold tokensOf close
  split
  · exact key.2
  · rename_i hne
    intro w hw
    rcases List.mem_cons.1 hw with rfl | hw
    · exact ⟨by simpa using hne, key.1⟩
    · exact key.2 w hw

-- ==================================================== joining

/-- Texts one after another with single spaces between them. -/
def spacedOf (ws : List (List Char)) : List Char := [' '].intercalate ws

/-- Words one after another with single spaces between them. -/
def spaced (ws : List String) : String :=
  String.ofList (spacedOf (ws.map String.toList))

/-- Writing words with single spaces is joining them with a space. -/
theorem spaced_eq_intercalate (ws : List String) :
    spaced ws = " ".intercalate ws := by
  rw [← String.toList_inj, String.toList_intercalate]
  unfold spaced spacedOf
  rw [String.toList_ofList]
  rfl

example : tokens "  a\u00a0bc \n" = ["a", "bc"] := by decide +kernel

example : spaced ["a", "bc"] = "a bc" := by decide +kernel

end Mnemonic.Text
