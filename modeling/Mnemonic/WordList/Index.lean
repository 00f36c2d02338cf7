/-
The index of a word list: from each word to a position that holds it.
Positions are kept as sixteen-bit numbers. A list that repeats a word
can be indexed in two ways, by the word's first position or by its last.
The two agree wherever no word is repeated.

The main statements say what a look-up in either index answers:
`ofFirst_getElem?` in terms of the first position of the word, and
`ofLast_getElem?` in terms of the last.
-/
import Std.Data.TreeMap

namespace Mnemonic

/-- For each word of a list a position at which it stands. -/
abbrev Index := Std.TreeMap String UInt16

namespace Index

-- ==================================================== the two indices

/-- A position as a sixteen-bit number. -/
def ofPosition (n : Nat) : UInt16 := UInt16.ofNat n

/-- Nothing is lost of a position below `2 ^ 16`. -/
theorem toNat_ofPosition {n : Nat} (h : n < 65536) :
    (ofPosition n).toNat = n := by
  rw [ofPosition, UInt16.toNat_ofNat']
  exact Nat.mod_eq_of_lt h

/-- Enters a word unless it has an entry. -/
def enter (m : Index) (e : String × Nat) : Index :=
  m.insertIfNew e.1 (ofPosition e.2)

/-- Enters a word in place of any entry it has. -/
def replace (m : Index) (e : String × Nat) : Index :=
  m.insert e.1 (ofPosition e.2)

/-- The index that keeps the first position of each word. -/
def ofFirst (ws : List String) : Index := ws.zipIdx.foldl enter ∅

/-- The index that keeps the last position of each word. -/
def ofLast (ws : List String) : Index := ws.zipIdx.foldl replace ∅

/-- The last position of a word in a list. -/
def lastPosition? (w : String) : List String → Option Nat
  | [] => none
  | x :: xs =>
      match lastPosition? w xs with
      | some i => some (i + 1)
      | none => if x = w then some 0 else none

-- ==================================================== look-up

/-- Entering a word leaves it where it is if it is there already. -/
theorem enter_getElem? (m : Index) (e : String × Nat) (w : String) :
    (enter m e)[w]? = m[w]?.or (if e.1 = w then some (ofPosition e.2) else none) := by
  simp only [enter, Std.TreeMap.getElem?_insertIfNew, Std.LawfulEqCmp.compare_eq_iff_eq]
  by_cases he : e.1 = w
  · subst he
    by_cases hm : e.1 ∈ m
    · simp [hm]
    · simp [hm]
  · simp [he]

/-- Replacing a word moves it to the later position. -/
theorem replace_getElem? (m : Index) (e : String × Nat) (w : String) :
    (replace m e)[w]? = (if e.1 = w then some (ofPosition e.2) else none).or m[w]? := by
  simp only [replace, Std.TreeMap.getElem?_insert, Std.LawfulEqCmp.compare_eq_iff_eq]
  by_cases he : e.1 = w <;> simp [he]

/-- Entering words one by one: an entry that is there stays, else the
first position counts. -/
theorem foldl_enter_getElem? (m : Index) (ws : List String) (n : Nat) (w : String) :
    ((ws.zipIdx n).foldl enter m)[w]?
      = m[w]?.or ((ws.idxOf? w).map fun i => ofPosition (n + i)) := by
  induction ws generalizing m n with
  | nil => simp
  | cons x xs ih =>
      rw [List.zipIdx_cons, List.foldl_cons, ih, enter_getElem?, List.idxOf?_cons]
      by_cases hx : x = w
      · subst hx
        simp
      · have shift (i : Nat) : n + 1 + i = n + (i + 1) := by omega
        simp [hx, Function.comp_def, shift]

/-- Replacing entries one by one: the last position counts, else an
entry that is there. -/
theorem foldl_replace_getElem? (m : Index) (ws : List String) (n : Nat) (w : String) :
    ((ws.zipIdx n).foldl replace m)[w]?
      = ((lastPosition? w ws).map fun i => ofPosition (n + i)).or m[w]? := by
  induction ws generalizing m n with
  | nil => simp [lastPosition?]
  | cons x xs ih =>
      rw [List.zipIdx_cons, List.foldl_cons, ih, replace_getElem?, lastPosition?]
      cases lastPosition? w xs with
      | some i =>
          have shift : n + 1 + i = n + (i + 1) := by omega
          simp [shift]
      | none =>
          by_cases hx : x = w <;> simp [hx]

/-- A look-up by first positions answers the first position of the
word. -/
theorem ofFirst_getElem? (ws : List String) (w : String) :
    (ofFirst ws)[w]? = (ws.idxOf? w).map ofPosition := by
  simp [ofFirst, foldl_enter_getElem?]

/-- A look-up by last positions answers the last position of the
word. -/
theorem ofLast_getElem? (ws : List String) (w : String) :
    (ofLast ws)[w]? = (lastPosition? w ws).map ofPosition := by
  simp [ofLast, foldl_replace_getElem?]

-- ========================================= positions hold their words

/-- A word that does not stand in a list has no last position. -/
theorem lastPosition?_eq_none_iff {w : String} {ws : List String} :
    lastPosition? w ws = none ↔ w ∉ ws := by
  induction ws with
  | nil => simp [lastPosition?]
  | cons x xs ih =>
      rw [lastPosition?, List.mem_cons, not_or, ← ih]
      cases lastPosition? w xs with
      | some i => simp
      | none => simp [eq_comm]

theorem getElem?_of_lastPosition? {w : String} {ws : List String} {i : Nat}
    (h : lastPosition? w ws = some i) : ws[i]? = some w := by
  induction ws generalizing i with
  | nil => simp [lastPosition?] at h
  | cons x xs ih =>
      rw [lastPosition?] at h
      cases hxs : lastPosition? w xs with
      | some j =>
          simp only [hxs, Option.some.injEq] at h
          subst h
          simpa using ih hxs
      | none =>
          by_cases hx : x = w
          · simp only [hxs, hx, if_true, Option.some.injEq] at h
            subst h
            simp [hx]
          · simp [hxs, hx] at h

theorem getElem?_of_idxOf? {w : String} {ws : List String} {i : Nat}
    (h : ws.idxOf? w = some i) : ws[i]? = some w := by
  obtain ⟨hlt, heq, -⟩ := List.idxOf?_eq_some_iff.1 h
  rw [List.getElem?_eq_getElem hlt, heq]

/-- An index serves a list when each of its entries is a position of the
word, and each word of the list has an entry. -/
structure Serves (m : Index) (ws : List String) : Prop where
  /-- The word stands at the position. -/
  sound : ∀ {w : String} {i : UInt16}, m[w]? = some i → ws[i.toNat]? = some w
  /-- No word is left out. -/
  complete : ∀ {w : String}, w ∈ ws → w ∈ m

/-- A look-up that answers positions of the word, and answers for every
word, serves the list if its positions fit sixteen bits. -/
theorem serves_of_positions {m : Index} {ws : List String} (place : String → Option Nat)
    (hfit : ws.length ≤ 65536)
    (hget : ∀ w, m[w]? = (place w).map ofPosition)
    (hsound : ∀ {w i}, place w = some i → ws[i]? = some w)
    (hnone : ∀ {w}, place w = none → w ∉ ws) : Serves m ws where
  sound := by
    intro w i h
    rw [hget, Option.map_eq_some_iff] at h
    obtain ⟨j, hj, rfl⟩ := h
    have hget' := hsound hj
    obtain ⟨hlt, -⟩ := List.getElem?_eq_some_iff.1 hget'
    rw [toNat_ofPosition (by omega), hget']
  complete := by
    intro w hw
    rw [← Std.TreeMap.isSome_getElem?_iff_mem, hget]
    cases hp : place w with
    | some i => simp
    | none => exact absurd hw (hnone hp)

theorem ofFirst_serves {ws : List String} (h : ws.length ≤ 65536) :
    Serves (ofFirst ws) ws :=
  serves_of_positions (fun w => ws.idxOf? w) h (ofFirst_getElem? ws) getElem?_of_idxOf?
    fun hw => List.idxOf?_eq_none_iff.1 hw

theorem ofLast_serves {ws : List String} (h : ws.length ≤ 65536) :
    Serves (ofLast ws) ws :=
  serves_of_positions (fun w => lastPosition? w ws) h (ofLast_getElem? ws)
    getElem?_of_lastPosition? fun hw => lastPosition?_eq_none_iff.1 hw

end Index

end Mnemonic
