/-
The entries of a text, read off its line feeds.

Line ends are told in two ways, and neither leaves a trace in the
entries: a carriage return in front of a line feed is a blank at the end
of a line, and the line that is missing behind a final line feed would
be a blank one. So the entries are what is left of the pieces between
the line feeds once blanks are taken off their ends and pieces of blanks
alone are dropped (`entriesOf_eq_kept`). Entries part at a line feed
therefore as the pieces do (`entriesOf_append_lineFeed`), and from this
equation follows what does not change them: any blanks added where a
line ends or begins, line feeds among them (`entriesOf_blanks_behind`,
`entriesOf_blanks_before`).

The other way about, words that can be entries, one to a line, are the
entries (`entries_of_isOnePerLine`), whichever way the lines end.
-/
import Mathlib.Data.List.Forall2
import Mathlib.Data.List.TakeWhile
import Mathlib.Logic.Relation
import Mnemonic.Proofs.Text.Layout
import Mnemonic.Text.Line

namespace Mnemonic.Text

-- ============================================================ trimming

/-- What is left of a text when blanks are taken off its ends until there
are none. -/
structure Trims (s w : List Char) : Prop where
  around : ∃ a b, AllBlank a ∧ AllBlank b ∧ s = a ++ w ++ b
  starts : ∀ c, w.head? = some c → isBlank c = false
  ends : ∀ c, w.getLast? = some c → isBlank c = false

variable {s t w x y a b : List Char} {c : Char}

theorem allBlank_append : AllBlank (a ++ b) ↔ AllBlank a ∧ AllBlank b := by
  unfold AllBlank
  rw [List.forall_mem_append]

theorem allBlank_singleton (h : isBlank c = true) : AllBlank [c] :=
  allBlank_cons.2 ⟨h, allBlank_nil⟩

theorem allBlank_reverse : AllBlank a.reverse ↔ AllBlank a := by
  simp [AllBlank]

/-- Nothing is left of a text without its leading blanks exactly if it
is blank. -/
theorem dropWhile_eq_nil_iff_allBlank :
    s.dropWhile isBlank = [] ↔ AllBlank s :=
  List.dropWhile_eq_nil_iff

/-- Blanks in front are trimmed off. -/
theorem trim_allBlank_append (ha : AllBlank a) :
    trim (a ++ s) = trim s := by
  unfold trim
  rw [List.dropWhile_append_of_pos ha]

theorem trim_append_allBlank (hb : AllBlank b) :
    trim (s ++ b) = trim s := by
  unfold trim
  rw [List.dropWhile_append]
  by_cases hs : AllBlank s
  · simp [dropWhile_eq_nil_iff_allBlank.2 hs,
      dropWhile_eq_nil_iff_allBlank.2 hb]
  · have hne : s.dropWhile isBlank ≠ [] := by
      rw [Ne, dropWhile_eq_nil_iff_allBlank]
      exact hs
    rw [if_neg (by simpa using hne), List.reverse_append,
      List.dropWhile_append_of_pos (allBlank_reverse.2 hb)]

/-- Nothing is taken off at an end where no blank stands. -/
theorem dropWhile_eq_self (h : ∀ c, s.head? = some c → isBlank c = false) :
    s.dropWhile isBlank = s := by
  cases s with
  | nil => rfl
  | cons c s => simp [h c rfl]

/-- A text that neither starts nor ends with a blank is left as it
is. -/
theorem trim_eq_self (hstart : ∀ c, w.head? = some c → isBlank c = false)
    (hend : ∀ c, w.getLast? = some c → isBlank c = false) :
    trim w = w := by
  have hback : ∀ c, w.reverse.head? = some c → isBlank c = false := by
    intro c hc
    rw [List.head?_reverse] at hc
    exact hend c hc
  unfold trim
  rw [dropWhile_eq_self hstart, dropWhile_eq_self hback,
    List.reverse_reverse]

/-- Taking blanks off one end leaves no blank there. -/
theorem isBlank_of_head?_dropWhile
    (h : (s.dropWhile isBlank).head? = some c) : isBlank c = false := by
  have hhead := List.head?_dropWhile_not isBlank s
  rw [h] at hhead
  simpa using hhead

theorem allBlank_takeWhile (s : List Char) :
    AllBlank (s.takeWhile isBlank) :=
  fun _ hc => List.mem_takeWhile_imp hc

/-- What trimming leaves is what is between the blanks at the ends. -/
theorem trims_trim (s : List Char) : Trims s (trim s) := by
  have hback : trim s
      ++ ((s.dropWhile isBlank).reverse.takeWhile isBlank).reverse
      = s.dropWhile isBlank := by
    unfold trim
    rw [← List.reverse_append, List.takeWhile_append_dropWhile,
      List.reverse_reverse]
  refine ⟨⟨_, _, allBlank_takeWhile s,
    allBlank_reverse.2 (allBlank_takeWhile (s.dropWhile isBlank).reverse),
    ?_⟩, ?_, ?_⟩
  · rw [List.append_assoc, hback, List.takeWhile_append_dropWhile]
  · intro c hc
    apply isBlank_of_head?_dropWhile (s := s)
    rw [← hback, List.head?_append, hc]
    rfl
  · intro c hc
    unfold trim at hc
    rw [List.getLast?_reverse] at hc
    exact isBlank_of_head?_dropWhile hc

/-- There is one way to trim a text. -/
theorem trims_iff : Trims s w ↔ w = trim s := by
  refine ⟨fun h => ?_, fun h => ?_⟩
  · obtain ⟨⟨a, b, ha, hb, rfl⟩, hstart, hend⟩ := h
    rw [trim_append_allBlank hb, trim_allBlank_append ha,
      trim_eq_self hstart hend]
  · subst h
    exact trims_trim s

/-- What is left of a text is not trimmed further. -/
theorem Trims.self (h : Trims s w) : Trims w w :=
  trims_iff.2 (trim_eq_self h.starts h.ends).symm

theorem Trims.mem (h : Trims s w) (hc : c ∈ w) : c ∈ s := by
  obtain ⟨a, b, -, -, rfl⟩ := h.around
  simp [hc]

/-- Trimming leaves nothing of blank texts only. -/
theorem trim_eq_nil_iff : trim s = [] ↔ AllBlank s := by
  refine ⟨fun h => ?_, fun h => ?_⟩
  · obtain ⟨a, b, ha, hb, hs⟩ := (trims_trim s).around
    rw [h, List.append_nil] at hs
    rw [hs]
    exact allBlank_append.2 ⟨ha, hb⟩
  · have hnil := trim_append_allBlank (s := []) h
    rw [List.nil_append] at hnil
    rw [hnil]
    rfl

-- ========================================== lines and line feeds

theorem linesOf_of_oneLine (hx : '\n' ∉ x) (hne : x ≠ []) :
    linesOf x = [x] := by
  induction x with
  | nil => contradiction
  | cons c x ih =>
      have hc : c ≠ '\n' := by
        rintro rfl
        exact hx List.mem_cons_self
      have hrest : '\n' ∉ x := fun h => hx (List.mem_cons_of_mem _ h)
      have hhead : x.head? ≠ some '\n' := fun h =>
        hrest (List.mem_of_mem_head? h)
      rw [linesOf_cons x hc fun _ => hhead]
      by_cases hnil : x = []
      · subst hnil
        rfl
      · rw [ih hrest hnil]
        rfl

/-- A line is what stands in front of its line feed, but for one carriage
return. -/
theorem linesOf_append_lineFeed (y : List Char) (hx : '\n' ∉ x) :
    ∃ w, (x = w ∨ x = w ++ ['\r'])
      ∧ linesOf (x ++ '\n' :: y) = w :: linesOf y := by
  induction x with
  | nil => exact ⟨[], Or.inl rfl, linesOf_lineFeed y⟩
  | cons c x ih =>
      have hc : c ≠ '\n' := by
        rintro rfl
        exact hx List.mem_cons_self
      have hrest : '\n' ∉ x := fun h => hx (List.mem_cons_of_mem _ h)
      -- a carriage return counts only where the line feed is next
      by_cases hreturn : c = '\r' ∧ x = []
      · obtain ⟨rfl, rfl⟩ := hreturn
        exact ⟨[], Or.inr rfl, linesOf_return_lineFeed y⟩
      · obtain ⟨w, hw, hlines⟩ := ih hrest
        have hhead : c = '\r' → (x ++ '\n' :: y).head? ≠ some '\n' := by
          intro hcr hfeed
          cases x with
          | nil => exact hreturn ⟨hcr, rfl⟩
          | cons d x =>
              have hd : d = '\n' := Option.some.inj hfeed
              exact hrest (hd ▸ List.mem_cons_self)
        refine ⟨c :: w, ?_, ?_⟩
        · rcases hw with rfl | rfl
          · exact Or.inl rfl
          · exact Or.inr rfl
        · rw [List.cons_append, linesOf_cons _ hc hhead, hlines]
          rfl

-- ========================================================= the entries

/-- Some pieces of text trimmed, without those of which nothing is
left. -/
def kept (ps : List (List Char)) : List (List Char) :=
  (ps.map trim).filter fun l => !l.isEmpty

theorem kept_append (ps qs : List (List Char)) :
    kept (ps ++ qs) = kept ps ++ kept qs := by
  unfold kept
  rw [List.map_append, List.filter_append]

/-- Only what trimming leaves of a piece matters. -/
theorem kept_singleton_congr (h : trim x = trim y) :
    kept [x] = kept [y] := by
  unfold kept
  rw [List.map_singleton, List.map_singleton, h]

theorem kept_cons (p : List Char) (ps : List (List Char)) :
    kept (p :: ps) = kept [p] ++ kept ps :=
  kept_append [p] ps

/-- What holds of every text on one line, and passes from a text to the
text with a line in front, holds of every text. -/
theorem induction_on_lineFeeds {P : List Char → Prop} (s : List Char)
    (one : ∀ x, '\n' ∉ x → P x)
    (more : ∀ x y, '\n' ∉ x → P y → P (x ++ '\n' :: y)) : P s := by
  induction hn : s.length using Nat.strongRecOn generalizing s with
  | _ n ih =>
    subst hn
    by_cases hfeed : '\n' ∈ s
    · obtain ⟨x, y, rfl, hx⟩ := List.eq_append_cons_of_mem hfeed
      have hlt : y.length < (x ++ '\n' :: y).length := by
        simp only [List.length_append, List.length_cons]
        omega
      exact more x y hx (ih _ hlt y rfl)
    · exact one s hfeed

/-- The entries of a text are those of its pieces between line feeds. -/
theorem entriesOf_eq_kept (s : List Char) :
    entriesOf s = kept (s.splitOn '\n') := by
  show kept (linesOf s) = _
  induction s using induction_on_lineFeeds with
  | one x hx =>
      rw [List.splitOn_eq_singleton hx]
      by_cases hnil : x = []
      · subst hnil
        rfl
      · rw [linesOf_of_oneLine hx hnil]
  | more x y hx ih =>
      obtain ⟨w, hw, hlines⟩ := linesOf_append_lineFeed y hx
      have htrim : trim w = trim x := by
        rcases hw with rfl | rfl
        · rfl
        · exact (trim_append_allBlank (allBlank_singleton (by decide))).symm
      rw [hlines, kept_cons, ih, kept_singleton_congr htrim,
        List.splitOn_append_cons_self_of_not_mem hx, ← kept_cons]

/-- Entries part at a line feed. -/
theorem entriesOf_append_lineFeed (x y : List Char) :
    entriesOf (x ++ '\n' :: y) = entriesOf x ++ entriesOf y := by
  simp only [entriesOf_eq_kept]
  rw [List.splitOn_append_cons_self, kept_append]

theorem entriesOf_of_oneLine (h : '\n' ∉ x) : entriesOf x = kept [x] := by
  rw [entriesOf_eq_kept, List.splitOn_eq_singleton h]

-- ============================================= what leaves no trace

/-- A blank at the end of a text changes nothing, be it a line feed or
not. -/
theorem entriesOf_append_blank (x : List Char) (hc : isBlank c = true) :
    entriesOf (x ++ [c]) = entriesOf x := by
  by_cases hfeed : c = '\n'
  · subst hfeed
    rw [entriesOf_append_lineFeed]
    exact List.append_nil _
  · induction x using induction_on_lineFeeds with
    | one x hx =>
        have hone : '\n' ∉ x ++ [c] := by
          simpa [hx] using Ne.symm hfeed
        have htrim := trim_append_allBlank (s := x) (allBlank_singleton hc)
        rw [entriesOf_of_oneLine hone, entriesOf_of_oneLine hx,
          kept_singleton_congr htrim]
    | more x y _ ih =>
        rw [List.append_assoc, List.cons_append, entriesOf_append_lineFeed,
          entriesOf_append_lineFeed, ih]

/-- Blanks at the end of a text change nothing. -/
theorem entriesOf_append_allBlank (x : List Char) (hb : AllBlank b) :
    entriesOf (x ++ b) = entriesOf x := by
  induction b generalizing x with
  | nil => rw [List.append_nil]
  | cons c b ih =>
      obtain ⟨hc, hb⟩ := allBlank_cons.1 hb
      rw [List.append_cons, ih _ hb, entriesOf_append_blank x hc]

/-- Nor does a blank at its start. -/
theorem entriesOf_blank_cons (y : List Char) (hc : isBlank c = true) :
    entriesOf (c :: y) = entriesOf y := by
  by_cases hfeed : c = '\n'
  · subst hfeed
    exact entriesOf_append_lineFeed [] y
  · have hone (x : List Char) (hx : '\n' ∉ x) :
        entriesOf (c :: x) = entriesOf x := by
      have hcons : '\n' ∉ c :: x := by
        simpa [hx] using Ne.symm hfeed
      have htrim := trim_allBlank_append (s := x) (allBlank_singleton hc)
      rw [entriesOf_of_oneLine hcons, entriesOf_of_oneLine hx]
      exact kept_singleton_congr htrim
    -- the blank is on the first line, and the others stay
    induction y using induction_on_lineFeeds with
    | one x hx => exact hone x hx
    | more x y hx _ =>
        rw [← List.cons_append, entriesOf_append_lineFeed,
          entriesOf_append_lineFeed, hone x hx]

/-- Blanks at the start of a text change nothing. -/
theorem entriesOf_allBlank_append (y : List Char) (ha : AllBlank a) :
    entriesOf (a ++ y) = entriesOf y := by
  induction a with
  | nil => rfl
  | cons c a ih =>
      obtain ⟨hc, ha⟩ := allBlank_cons.1 ha
      rw [List.cons_append, entriesOf_blank_cons _ hc, ih ha]

/-- A line begins behind this text. -/
def StartsLine (x : List Char) : Prop := x = [] ∨ ∃ z, x = z ++ ['\n']

/-- A line ends in front of this text. -/
def EndsLine (y : List Char) : Prop := y = [] ∨ ∃ z, y = '\n' :: z

/-- Blanks at the end of a line, line feeds among them, leave the entries
as they are. -/
theorem entriesOf_blanks_behind (x : List Char) (hb : AllBlank b)
    (hy : EndsLine y) : entriesOf (x ++ b ++ y) = entriesOf (x ++ y) := by
  rcases hy with rfl | ⟨z, rfl⟩
  · rw [List.append_nil, List.append_nil, entriesOf_append_allBlank x hb]
  · rw [entriesOf_append_lineFeed, entriesOf_append_lineFeed,
      entriesOf_append_allBlank x hb]

/-- So do blanks at the beginning of a line. -/
theorem entriesOf_blanks_before (y : List Char) (hb : AllBlank b)
    (hx : StartsLine x) : entriesOf (x ++ b ++ y) = entriesOf (x ++ y) := by
  rcases hx with rfl | ⟨z, rfl⟩
  · exact entriesOf_allBlank_append y hb
  · simp only [List.append_assoc, List.cons_append, List.nil_append]
    rw [entriesOf_append_lineFeed, entriesOf_append_lineFeed,
      entriesOf_allBlank_append y hb]

/-- One change to the way in which the lines of a text are written. -/
inductive Relined : List Char → List Char → Prop where
  /-- A line that ends with a line feed ends with a carriage return and a
  line feed. -/
  | carriageReturn (x y : List Char) :
      Relined (x ++ '\n' :: y) (x ++ '\r' :: '\n' :: y)
  /-- Blanks are put at the end of a line. -/
  | blanksBehind {x b y : List Char} :
      AllBlank b → '\n' ∉ b → EndsLine y → Relined (x ++ y) (x ++ b ++ y)
  /-- Blanks are put at the beginning of a line. -/
  | blanksBefore {x b y : List Char} :
      AllBlank b → '\n' ∉ b → StartsLine x → Relined (x ++ y) (x ++ b ++ y)
  /-- A blank line is put between two lines, or in front of all. -/
  | blankLine {x b y : List Char} :
      AllBlank b → '\n' ∉ b → StartsLine x →
      Relined (x ++ y) (x ++ b ++ '\n' :: y)
  /-- The last line is ended with a line feed. -/
  | lastLineFeed (x : List Char) : Relined x (x ++ ['\n'])

/-- No single change to the lines changes the entries. -/
theorem entriesOf_relined (h : Relined s t) : entriesOf t = entriesOf s := by
  have hfeed : isBlank '\n' = true := by decide
  cases h with
  | carriageReturn x y =>
      have hreturn : AllBlank ['\r'] := allBlank_singleton (by decide)
      have hends := entriesOf_blanks_behind x hreturn (Or.inr ⟨y, rfl⟩)
      rw [List.append_assoc] at hends
      exact hends
  | blanksBehind hb _ hy => exact entriesOf_blanks_behind _ hb hy
  | blanksBefore hb _ hx => exact entriesOf_blanks_before _ hb hx
  | @blankLine x b y hb _ hx =>
      have hline : AllBlank (b ++ ['\n']) :=
        allBlank_append.2 ⟨hb, allBlank_singleton hfeed⟩
      -- a blank line is one run of blanks, its line feed included
      have hbegins := entriesOf_blanks_before y hline hx
      rw [← List.append_assoc, List.append_assoc (x ++ b)] at hbegins
      exact hbegins
  | lastLineFeed => exact entriesOf_append_blank s hfeed

/-- Any number of changes, made or taken back, leave the entries as they
are. -/
theorem entriesOf_of_eqvGen (h : Relation.EqvGen Relined s t) :
    entriesOf t = entriesOf s := by
  induction h with
  | rel _ _ hst => exact entriesOf_relined hst
  | refl _ => rfl
  | symm _ _ _ ih => exact ih.symm
  | trans _ _ _ _ _ ih ih' => exact ih'.trans ih

-- ==================================================== words as entries

/-- The pieces of a text between its line feeds, without those that are
all blank. -/
def pieces (s : List Char) : List (List Char) :=
  (s.splitOn '\n').filter fun p => decide (¬ AllBlank p)

/-- Words that are what is left of the pieces of a text, in order, once
they are trimmed. -/
def AreListed (ws : List String) (s : String) : Prop :=
  List.Forall₂ (fun p w => Trims p w.toList) (pieces s.toList) ws

/-- The entries are the pieces that are not blank, each trimmed. -/
theorem entriesOf_eq_map_trim (s : List Char) :
    entriesOf s = (pieces s).map trim := by
  rw [entriesOf_eq_kept]
  unfold kept pieces
  rw [List.filter_map]
  refine congrArg _ (List.filter_congr fun p _ => ?_)
  by_cases hp : AllBlank p
  · simp [hp, trim_eq_nil_iff.2 hp]
  · have hne : trim p ≠ [] := by
      rw [Ne, trim_eq_nil_iff]
      exact hp
    simp [hp, hne]

/-- The entries are the words that are listed, and no others are. -/
theorem areListed_iff {ws : List String} {s : String} :
    AreListed ws s ↔ ws = entries s := by
  have hof (p : List Char) (w : String) :
      Trims p w.toList ↔ String.ofList (trim p) = w := by
    rw [trims_iff, ← String.toList_inj, String.toList_ofList]
    exact eq_comm
  have hmap : AreListed ws s
      ↔ List.Forall₂ Eq ((pieces s.toList).map (String.ofList ∘ trim)) ws := by
    unfold AreListed
    simp only [hof]
    exact List.forall₂_map_left_iff.symm
  unfold entries
  rw [hmap, List.forall₂_eq_eq_eq, entriesOf_eq_map_trim, List.map_map]
  exact eq_comm

/-- A word that can be an entry: not empty, on one line, and without
blanks at its ends. -/
structure IsEntry (w : String) : Prop where
  ne_empty : w ≠ ""
  oneLine : '\n' ∉ w.toList
  trimmed : Trims w.toList w.toList

/-- A word that can be a token can be an entry. -/
theorem IsToken.isEntry {w : String} (h : IsToken w) : IsEntry w := by
  have hfree (c : Char) (hc : c ∈ w.toList) : isBlank c = false :=
    h.blankFree c hc
  refine ⟨h.ne_empty, ?_, ?_⟩
  · intro hfeed
    have hblank : isBlank '\n' = true := by decide
    rw [hfree _ hfeed] at hblank
    cases hblank
  · rw [trims_iff, trim_eq_self]
    · exact fun c hc => hfree c (List.mem_of_mem_head? hc)
    · exact fun c hc => hfree c (List.mem_of_getLast? hc)

/-- No piece between line feeds holds one. -/
theorem lineFeed_notMem_of_mem_splitOn (s : List Char) :
    ∀ p ∈ s.splitOn '\n', '\n' ∉ p := by
  induction s using induction_on_lineFeeds with
  | one x hx =>
      rw [List.splitOn_eq_singleton hx, List.forall_mem_singleton]
      exact hx
  | more x y hx ih =>
      rw [List.splitOn_append_cons_self_of_not_mem hx,
        List.forall_mem_cons]
      exact ⟨hx, ih⟩

/-- What is an entry can be one. -/
theorem isEntry_of_mem_entries {s w : String} (h : w ∈ entries s) :
    IsEntry w := by
  unfold entries at h
  rw [entriesOf_eq_map_trim, List.map_map, List.mem_map] at h
  obtain ⟨p, hp, rfl⟩ := h
  unfold pieces at hp
  rw [List.mem_filter, decide_eq_true_eq] at hp
  obtain ⟨hpiece, hblank⟩ := hp
  have htrims := trims_trim p
  show IsEntry (String.ofList (trim p))
  refine ⟨?_, ?_, ?_⟩
  · intro hempty
    rw [← String.toList_eq_nil_iff, String.toList_ofList,
      trim_eq_nil_iff] at hempty
    exact hblank hempty
  · rw [String.toList_ofList]
    intro hfeed
    exact lineFeed_notMem_of_mem_splitOn s.toList p hpiece
      (htrims.mem hfeed)
  · rw [String.toList_ofList]
    exact htrims.self

/-- A text with some words in it, in their order, each on a line of its
own. Lines end with a line feed, with or without a carriage return in
front of it, and the last need not end. -/
inductive OnePerLine : List (List Char) → List Char → Prop where
  | nil : OnePerLine [] []
  | last (w : List Char) : OnePerLine [w] w
  | lineFeed {w s : List Char} {ws : List (List Char)} :
      OnePerLine ws s → OnePerLine (w :: ws) (w ++ '\n' :: s)
  | returnLineFeed {w s : List Char} {ws : List (List Char)} :
      OnePerLine ws s → OnePerLine (w :: ws) (w ++ '\r' :: '\n' :: s)

/-- A text that holds some words one to a line. -/
def IsOnePerLine (ws : List String) (s : String) : Prop :=
  OnePerLine (ws.map String.toList) s.toList

/-- A word that can be an entry is the only entry of itself. -/
theorem IsEntry.entriesOf_eq {w : String} (h : IsEntry w) :
    entriesOf w.toList = [w.toList] := by
  have htrim : trim w.toList = w.toList := (trims_iff.1 h.trimmed).symm
  have hne : w.toList ≠ [] := by
    rw [Ne, String.toList_eq_nil_iff]
    exact h.ne_empty
  rw [entriesOf_of_oneLine h.oneLine]
  unfold kept
  simp [htrim, hne]

/-- The lines of a text are its entries if each is an entry of itself. -/
theorem entriesOf_of_onePerLine {ws : List (List Char)}
    (h : OnePerLine ws s) (hws : ∀ w ∈ ws, entriesOf w = [w]) :
    entriesOf s = ws := by
  induction h with
  | nil => rfl
  | last w => exact hws w List.mem_cons_self
  | @lineFeed w s ws _ ih =>
      obtain ⟨hw, hws⟩ := List.forall_mem_cons.1 hws
      rw [entriesOf_append_lineFeed, hw, ih hws]
      rfl
  | @returnLineFeed w s ws _ ih =>
      have hreturn : isBlank '\r' = true := by decide
      obtain ⟨hw, hws⟩ := List.forall_mem_cons.1 hws
      rw [List.append_cons, entriesOf_append_lineFeed,
        entriesOf_append_blank w hreturn, hw, ih hws]
      rfl

/-- Words that can be entries, one to a line, are the entries. -/
theorem entries_of_isOnePerLine {ws : List String} {s : String}
    (h : IsOnePerLine ws s) (hws : ∀ w ∈ ws, IsEntry w) :
    entries s = ws := by
  have hof : entriesOf s.toList = ws.map String.toList := by
    apply entriesOf_of_onePerLine h
    rw [List.forall_mem_map]
    exact fun w hw => (hws w hw).entriesOf_eq
  unfold entries
  rw [hof, List.map_map]
  exact List.map_id'' (fun w => String.ofList_toList) ws

/-- Words with the end of a line between any two are one to a line. -/
theorem isOnePerLine_intercalate {e : String} (ws : List String)
    (he : e = "\n" ∨ e = "\r\n") : IsOnePerLine ws (e.intercalate ws) := by
  unfold IsOnePerLine
  rw [String.toList_intercalate]
  induction ws.map String.toList with
  | nil => exact .nil
  | cons w vs ih =>
      cases vs with
      | nil =>
          rw [List.intercalate_singleton]
          exact .last w
      | cons v vs =>
          rw [List.intercalate_cons_cons, List.append_assoc]
          rcases he with rfl | rfl
          · exact .lineFeed ih
          · exact .returnLineFeed ih

end Mnemonic.Text
