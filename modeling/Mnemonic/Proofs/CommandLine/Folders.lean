/-
What is read in a folder.

A path is cut at its slashes and walked name by name. Two things hold of
every walk, whatever its names: a file is only ever come to as an entry
of the folder (`lookup_of_walk`), and a walk that has left the folder
does not come back (`foldlM_enter_outside`). So a text that is read is
always one that the folder holds (`lookup_of_read`).

A path of proper names, which are neither empty nor made of dots, is
walked along the entries. `Leads` has a constructor for each way in
which that can end: in a directory, on a file, at a name behind a file,
or at a name that nothing in the folder bears. Each of them is where the
walk ends (`foldlM_of_leads`), and there is always one
(`exists_leads`), so the walk ends as the relation says and in no other
way (`walk_eq_iff`). What a program is given as its word list from such
a path is then settled by the entry that it names (`load_inFolder`).
-/
import Mnemonic.Proofs.CommandLine.Loading

namespace Mnemonic.CommandLine

-- ========================================================== their texts

/-- Some bytes are those of a text. -/
def IsTextOf (text : String) (bytes : List UInt8) : Prop :=
  text.toByteArray = ByteArray.mk bytes.toArray

/-- Bytes are read as the one text that they are the bytes of. -/
theorem fromUTF8?_eq_some_iff {text : String} {bytes : ByteArray} :
    String.fromUTF8? bytes = some text ↔ text.toByteArray = bytes := by
  unfold String.fromUTF8?
  refine ⟨fun h => ?_, fun h => ?_⟩
  · split at h
    · cases h
      rfl
    · cases h
  · subst h
    rw [dif_pos text.isValidUTF8]
    rfl

/-- Only a file has a text, the one that its bytes are of. -/
theorem text_eq_ok_iff {place : Place} {text : String} :
    place.text = .ok text
      ↔ ∃ bytes, place = .file bytes ∧ IsTextOf text bytes := by
  refine ⟨fun h => ?_, fun h => ?_⟩
  · cases place with
    | inside => cases h
    | outside => cases h
    | file bytes =>
        simp only [Place.text] at h
        split at h
        · rename_i found hfound
          cases h
          exact ⟨bytes, rfl, fromUTF8?_eq_some_iff.1 hfound⟩
        · cases h
  · obtain ⟨bytes, rfl, htext⟩ := h
    simp only [Place.text]
    rw [fromUTF8?_eq_some_iff.2 htext]

namespace Folder

variable {folder : Folder} {here ns rest : List String}
variable {n path text : String} {bytes : List UInt8} {place : Place}

-- ============================================================= any walk

/-- Two steps in a row arrive somewhere if the first arrives and the
second goes on from there. -/
theorem bind_eq_ok_iff {α β : Type} {x : Except FileError α}
    {f : α → Except FileError β} {b : β} :
    x.bind f = .ok b ↔ ∃ a, x = .ok a ∧ f a = .ok b := by
  cases x with
  | error e =>
      refine ⟨fun h => ?_, fun h => ?_⟩
      · cases h
      · obtain ⟨a, ha, -⟩ := h
        cases ha
  | ok a =>
      refine ⟨fun h => ⟨a, rfl, h⟩, fun h => ?_⟩
      obtain ⟨a', ha, hb⟩ := h
      cases ha
      exact hb

theorem foldlM_singleton :
    [n].foldlM (enter folder) place = enter folder place n := by
  simp only [List.foldlM_cons, List.foldlM_nil, bind_pure]

/-- From outside the folder every name leads outside or nowhere. -/
theorem enter_outside (h : enter folder .outside n = .ok place) :
    place = .outside := by
  simp only [enter] at h
  split at h
  · cases h
    rfl
  · split at h <;> cases h

/-- A name leads to a file only if the file is an entry. -/
theorem lookup_of_child (h : child folder here n = .ok (.file bytes)) :
    folder.lookup (here ++ [n]) = some (.file bytes) := by
  simp only [child] at h
  split at h
  · rename_i found hfound
    cases h
    exact hfound
  · cases h
  · split at h <;> cases h

/-- A step comes to a file only by looking its names up. -/
theorem lookup_of_enter (h : enter folder place n = .ok (.file bytes)) :
    ∃ ns, folder.lookup ns = some (.file bytes) := by
  cases place with
  | file => cases h
  | outside => cases enter_outside h
  | inside here =>
      simp only [enter] at h
      -- no name leads to a file but one that is looked up
      split at h
      · cases h
      · split at h
        · split at h <;> cases h
        · split at h
          · cases h
          · exact ⟨_, lookup_of_child h⟩

/-- Every file that a walk comes to is an entry of the folder: its last
step has looked it up. -/
theorem lookup_of_walk (h : walk folder path = .ok (.file bytes)) :
    ∃ ns, folder.lookup ns = some (.file bytes) := by
  unfold walk at h
  rcases List.eq_nil_or_concat (names path) with hnil | ⟨init, n, hsnoc⟩
  · rw [hnil] at h
    unfold start at h
    split at h <;> cases h
  · -- only the last step matters: a walk that is on a file cannot go on
    rw [hsnoc, List.concat_eq_append, List.foldlM_append] at h
    obtain ⟨place, -, hlast⟩ := bind_eq_ok_iff.1 h
    rw [foldlM_singleton] at hlast
    exact lookup_of_enter hlast

/-- A walk that is outside the folder stays there. -/
theorem foldlM_enter_outside
    (h : ns.foldlM (enter folder) .outside = .ok place) :
    place = .outside := by
  induction ns with
  | nil =>
      cases h
      rfl
  | cons n ns ih =>
      rw [List.foldlM_cons] at h
      obtain ⟨next, hn, hrest⟩ := bind_eq_ok_iff.1 h
      rw [enter_outside hn] at hrest
      exact ih hrest

/-- What is read is the text at the end of the walk. -/
theorem walk_of_read (h : folder.read path = .ok text) :
    ∃ bytes, walk folder path = .ok (.file bytes)
      ∧ IsTextOf text bytes := by
  unfold read at h
  split at h
  · cases h
  · split at h
    · cases h
    · obtain ⟨place, hwalk, hplace⟩ := bind_eq_ok_iff.1 h
      obtain ⟨bytes, rfl, htext⟩ := text_eq_ok_iff.1 hplace
      exact ⟨bytes, hwalk, htext⟩

/-- A text that is read is one that the folder holds, whichever way the
path takes. -/
theorem lookup_of_read (h : folder.read path = .ok text) :
    ∃ ns bytes, folder.lookup ns = some (.file bytes)
      ∧ IsTextOf text bytes := by
  obtain ⟨bytes, hwalk, htext⟩ := walk_of_read h
  obtain ⟨ns, hns⟩ := lookup_of_walk hwalk
  exact ⟨ns, bytes, hns, htext⟩

/-- Nothing is read at a path that starts with a slash. -/
theorem read_ne_ok_of_slash (h : path.toList.head? = some '/') :
    folder.read path ≠ .ok text := by
  intro hread
  obtain ⟨bytes, hwalk, -⟩ := walk_of_read hread
  have hstart : start path = .outside := by
    unfold start
    rw [h]
    rfl
  unfold walk at hwalk
  rw [hstart] at hwalk
  cases foldlM_enter_outside hwalk

-- ==================================================== along the entries

/-- The names lead to a directory: it is an entry, or other entries lie
beneath it. -/
def IsDirectory (folder : Folder) (ns : List String) : Prop :=
  folder.lookup ns = some .directory
    ∨ folder.lookup ns = none ∧ ∃ e ∈ folder, ns <+: e.1

/-- No entry bears the names, and none lies beneath them. -/
def IsAbsent (folder : Folder) (ns : List String) : Prop :=
  folder.lookup ns = none ∧ ∀ e ∈ folder, ¬ ns <+: e.1

/-- The names lead from directory to directory. -/
def Way (folder : Folder) (ns : List String) : Prop :=
  ∀ p, p <+: ns → p ≠ [] → IsDirectory folder p

/-- A name that an entry can bear: it stands for nothing else, and it is
not too long. -/
structure IsName (n : String) : Prop where
  plain : '/' ∉ n.toList
  ne_empty : n ≠ ""
  ne_here : n ≠ "."
  ne_above : n ≠ ".."
  length_le : n.utf8ByteSize ≤ longestName

/-- Where the walk along some names ends: in the directory or on the
file that they name, or at the first name that cannot be followed. -/
inductive Leads (folder : Folder) :
    List String → Except FileError Place → Prop where
  | directory {ns : List String} :
      Way folder ns → Leads folder ns (.ok (.inside ns))
  | file {here : List String} {n : String} {bytes : List UInt8} :
      Way folder here → folder.lookup (here ++ [n]) = some (.file bytes) →
      Leads folder (here ++ [n]) (.ok (.file bytes))
  | behindFile {here rest : List String} {n m : String}
      {bytes : List UInt8} :
      Way folder here → folder.lookup (here ++ [n]) = some (.file bytes) →
      Leads folder (here ++ n :: m :: rest) (.error .notDirectory)
  | absent {here rest : List String} {n : String} :
      Way folder here → IsAbsent folder (here ++ [n]) →
      Leads folder (here ++ n :: rest) (.error .absent)

theorem way_nil : Way folder [] := by
  intro p hp hne
  exact absurd (List.prefix_nil.1 hp) hne

/-- A way goes on over one more directory, and all of its beginnings are
ways. -/
theorem way_snoc_iff :
    Way folder (ns ++ [n])
      ↔ Way folder ns ∧ IsDirectory folder (ns ++ [n]) := by
  refine ⟨fun h => ?_, fun h => ?_⟩
  · refine ⟨fun p hp => ?_, h _ (List.prefix_refl _) (by simp)⟩
    exact h p (hp.trans (List.prefix_append ns [n]))
  · obtain ⟨hway, hlast⟩ := h
    intro p hp hne
    rcases List.prefix_concat_iff.1 hp with rfl | hp
    · exact hlast
    · exact hway p hp hne

/-- Names lead to a directory, to a file, or to nothing. -/
theorem entry_cases (folder : Folder) (ns : List String) :
    IsDirectory folder ns
      ∨ (∃ bytes, folder.lookup ns = some (.file bytes))
      ∨ IsAbsent folder ns := by
  cases hns : folder.lookup ns with
  | none =>
      by_cases hbeneath : ∃ e ∈ folder, ns <+: e.1
      · exact Or.inl (Or.inr ⟨hns, hbeneath⟩)
      · refine Or.inr (Or.inr ⟨hns, fun e he hprefix => ?_⟩)
        exact hbeneath ⟨e, he, hprefix⟩
  | some entry =>
      cases entry with
      | directory => exact Or.inl (Or.inl hns)
      | file bytes => exact Or.inr (Or.inl ⟨bytes, rfl⟩)

theorem any_isPrefixOf_iff :
    (folder.any fun e => ns.isPrefixOf e.1) = true
      ↔ ∃ e ∈ folder, ns <+: e.1 := by
  simp only [List.any_eq_true, List.isPrefixOf_iff_prefix]

/-- A name that an entry can bear is looked up among the entries. -/
theorem enter_of_isName (h : IsName n) :
    enter folder (.inside here) n = child folder here n := by
  have hplace : ¬ (n == "" || n == ".") = true := by
    simp [h.ne_empty, h.ne_here]
  have habove : ¬ (n == "..") = true := by
    simp [h.ne_above]
  simp only [enter]
  rw [if_neg hplace, if_neg habove, if_neg (Nat.not_lt.2 h.length_le)]

/-- A step over a directory. -/
theorem enter_of_isDirectory (hn : IsName n)
    (h : IsDirectory folder (here ++ [n])) :
    enter folder (.inside here) n = .ok (.inside (here ++ [n])) := by
  rw [enter_of_isName hn]
  simp only [child]
  rcases h with hentry | ⟨hnone, hbeneath⟩
  · rw [hentry]
  · rw [hnone]
    exact if_pos (any_isPrefixOf_iff.2 hbeneath)

theorem enter_of_file (hn : IsName n)
    (h : folder.lookup (here ++ [n]) = some (.file bytes)) :
    enter folder (.inside here) n = .ok (.file bytes) := by
  rw [enter_of_isName hn]
  simp only [child]
  rw [h]

/-- A step to a name that nothing bears fails, and says so. -/
theorem enter_of_isAbsent (hn : IsName n)
    (h : IsAbsent folder (here ++ [n])) :
    enter folder (.inside here) n = .error .absent := by
  obtain ⟨hnone, hnothing⟩ := h
  rw [enter_of_isName hn]
  simp only [child]
  rw [hnone]
  refine if_neg fun hany => ?_
  obtain ⟨e, he, hprefix⟩ := any_isPrefixOf_iff.1 hany
  exact hnothing e he hprefix

/-- Over directories a walk gets on by each name. -/
theorem foldlM_of_way (hns : ∀ n ∈ ns, IsName n) (h : Way folder ns) :
    ns.foldlM (enter folder) (.inside []) = .ok (.inside ns) := by
  induction ns using List.reverseRecOn with
  | nil => rfl
  | append_singleton ns n ih =>
      rw [List.forall_mem_append, List.forall_mem_singleton] at hns
      obtain ⟨hinit, hn⟩ := hns
      obtain ⟨hway, hlast⟩ := way_snoc_iff.1 h
      rw [List.foldlM_append, ih hinit hway]
      show [n].foldlM (enter folder) (.inside ns) = _
      rw [foldlM_singleton, enter_of_isDirectory hn hlast]

/-- Behind a way of directories the next name is looked up. -/
theorem foldlM_append_of_way (hhere : ∀ n ∈ here, IsName n)
    (h : Way folder here) :
    (here ++ n :: rest).foldlM (enter folder) (.inside [])
      = (enter folder (.inside here) n).bind
          fun next => rest.foldlM (enter folder) next := by
  rw [List.foldlM_append, foldlM_of_way hhere h]
  show (n :: rest).foldlM (enter folder) (.inside here) = _
  rw [List.foldlM_cons]
  rfl

/-- Each end is where the walk ends. -/
theorem foldlM_of_leads {r : Except FileError Place}
    (hns : ∀ n ∈ ns, IsName n) (h : Leads folder ns r) :
    ns.foldlM (enter folder) (.inside []) = r := by
  cases h with
  | directory hway => exact foldlM_of_way hns hway
  | file hway hfile =>
      rw [List.forall_mem_append, List.forall_mem_cons] at hns
      obtain ⟨hhere, hn, -⟩ := hns
      rw [foldlM_append_of_way hhere hway, enter_of_file hn hfile]
      rfl
  | behindFile hway hfile =>
      rw [List.forall_mem_append, List.forall_mem_cons] at hns
      obtain ⟨hhere, hn, -⟩ := hns
      rw [foldlM_append_of_way hhere hway, enter_of_file hn hfile]
      rfl
  | absent hway hnone =>
      rw [List.forall_mem_append, List.forall_mem_cons] at hns
      obtain ⟨hhere, hn, -⟩ := hns
      rw [foldlM_append_of_way hhere hway, enter_of_isAbsent hn hnone]
      rfl

/-- One more name ends a way of directories or goes on with it, and
changes nothing of an end. -/
theorem exists_leads (folder : Folder) (ns : List String) :
    ∃ r, Leads folder ns r := by
  induction ns using List.reverseRecOn with
  | nil => exact ⟨_, .directory way_nil⟩
  | append_singleton ns n ih =>
      obtain ⟨r, hr⟩ := ih
      cases hr with
      | directory hway =>
          rcases entry_cases folder (ns ++ [n]) with hdir | ⟨_, hfile⟩ | hnone
          · exact ⟨_, .directory (way_snoc_iff.2 ⟨hway, hdir⟩)⟩
          · exact ⟨_, .file hway hfile⟩
          · exact ⟨_, .absent hway hnone⟩
      -- what has ended stays ended, and the name is one more behind it
      | file hway hfile =>
          rw [List.append_assoc]
          exact ⟨_, .behindFile hway hfile⟩
      | behindFile hway hfile =>
          rw [List.append_assoc]
          exact ⟨_, .behindFile hway hfile⟩
      | absent hway hnone =>
          rw [List.append_assoc]
          exact ⟨_, .absent hway hnone⟩

/-- Names end on a file only as the last behind a way of directories. -/
theorem leads_file_iff :
    Leads folder (here ++ [n]) (.ok (.file bytes))
      ↔ Way folder here
        ∧ folder.lookup (here ++ [n]) = some (.file bytes) := by
  refine ⟨fun h => ?_, fun h => .file h.1 h.2⟩
  generalize hns : here ++ [n] = ns at h
  cases h with
  | file hway hfile =>
      obtain ⟨rfl, rfl⟩ := List.append_singleton_inj.1 hns
      exact ⟨hway, hfile⟩

-- ============================================================ the paths

/-- A path that names an entry: its names are between slashes, and it is
not too long. -/
structure IsPathOf (ns : List String) (path : String) : Prop where
  ne_nil : ns ≠ []
  names : ∀ n ∈ ns, IsName n
  path_eq : path = "/".intercalate ns
  length_le : path.utf8ByteSize ≤ longestPath

/-- Cutting at a slash is splitting at it. -/
theorem cut_eq_splitOn (cs : List Char) : names.cut cs = cs.splitOn '/' := by
  induction cs with
  | nil => rfl
  | cons c cs ih =>
      rw [List.splitOn_cons_eq_if_modifyHead, ← ih]
      by_cases hc : c = '/'
      · subst hc
        rfl
      · rw [if_neg (by simpa using hc), names.cut.eq_3 c cs hc]
        cases hcut : names.cut cs with
        | nil =>
            rw [ih] at hcut
            exact absurd hcut (List.splitOn_ne_nil _ _)
        | cons w ws => rfl

/-- A path is cut into the names that it was made of. -/
theorem names_of_isPathOf (h : IsPathOf ns path) : names path = ns := by
  have hne : ns.map String.toList ≠ [] := by
    intro hnil
    exact h.ne_nil (List.map_eq_nil_iff.1 hnil)
  have hplain : ∀ cs ∈ ns.map String.toList, '/' ∉ cs := by
    intro cs hcs
    obtain ⟨n, hn, rfl⟩ := List.mem_map.1 hcs
    exact (h.names n hn).plain
  have hslash : "/".toList = ['/'] := rfl
  unfold names
  rw [h.path_eq, String.toList_intercalate, cut_eq_splitOn, hslash,
    List.splitOn_intercalate _ hplain hne, List.map_map]
  simp

/-- A path of names starts with a letter of its first name, so not with
a slash. -/
theorem toList_of_isPathOf (h : IsPathOf ns path) :
    ∃ c cs, path.toList = c :: cs ∧ c ≠ '/' := by
  obtain ⟨n, rest, rfl⟩ := List.exists_cons_of_ne_nil h.ne_nil
  have hn : IsName n := h.names n List.mem_cons_self
  have hne : n.toList ≠ [] := by
    intro hnil
    exact hn.ne_empty (String.toList_eq_nil_iff.1 hnil)
  obtain ⟨c, cs, hname⟩ := List.exists_cons_of_ne_nil hne
  have hc : c ≠ '/' := by
    rintro rfl
    exact hn.plain (by simp [hname])
  rw [h.path_eq, String.toList_intercalate, List.map_cons, hname]
  -- whatever follows the first name stands behind its letters
  cases rest with
  | nil =>
      rw [List.map_nil, List.intercalate_singleton]
      exact ⟨c, cs, rfl, hc⟩
  | cons m rest =>
      rw [List.map_cons, List.intercalate_cons_cons]
      exact ⟨c, _, rfl, hc⟩

/-- A path of names is walked from the folder, not from outside. -/
theorem walk_eq_foldlM (h : IsPathOf ns path) :
    walk folder path = ns.foldlM (enter folder) (.inside []) := by
  obtain ⟨c, cs, hpath, hc⟩ := toList_of_isPathOf h
  have hstart : start path = .inside [] := by
    unfold start
    rw [hpath]
    exact if_neg (by simpa using hc)
  unfold walk
  rw [hstart, names_of_isPathOf h]

/-- The walk along a path ends where its names lead. -/
theorem walk_eq_iff {r : Except FileError Place} (h : IsPathOf ns path) :
    walk folder path = r ↔ Leads folder ns r := by
  rw [walk_eq_foldlM h]
  refine ⟨fun hr => ?_, foldlM_of_leads h.names⟩
  obtain ⟨r', hr'⟩ := exists_leads folder ns
  rw [← hr, foldlM_of_leads h.names hr']
  exact hr'

/-- No guard stops the reading of a path of names before its walk. -/
theorem read_of_isPathOf (h : IsPathOf ns path) :
    folder.read path = (walk folder path).bind Place.text := by
  obtain ⟨c, cs, hpath, -⟩ := toList_of_isPathOf h
  have hne : ¬ path.isEmpty = true := by
    intro hempty
    rw [String.isEmpty_iff.1 hempty] at hpath
    cases hpath
  unfold read
  rw [if_neg hne, if_neg (Nat.not_lt.2 h.length_le)]

/-- A path is read exactly if it leads over directories to a file whose
bytes are those of a text. -/
theorem read_eq_ok_iff (h : IsPathOf (here ++ [n]) path) :
    folder.read path = .ok text
      ↔ Way folder here
        ∧ ∃ bytes, folder.lookup (here ++ [n]) = some (.file bytes)
          ∧ IsTextOf text bytes := by
  refine ⟨fun hread => ?_, fun hfile => ?_⟩
  · obtain ⟨bytes, hwalk, htext⟩ := walk_of_read hread
    obtain ⟨hway, hfile⟩ := leads_file_iff.1 ((walk_eq_iff h).1 hwalk)
    exact ⟨hway, bytes, hfile, htext⟩
  · obtain ⟨hway, bytes, hfile, htext⟩ := hfile
    rw [read_of_isPathOf h, (walk_eq_iff h).2 (.file hway hfile)]
    exact text_eq_ok_iff.2 ⟨bytes, rfl, htext⟩

/-- A directory need not be an entry for what lies in it to be read. -/
example :
    Folder.read [(["lists", "own.txt"], .file [97, 10])] "lists/own.txt"
      = .ok "a\n" := by
  decide +kernel

end Folder

-- ========================================================= the word list

variable {folder : Folder} {vocabulary : Vocabulary} {colour : Bool}
variable {here rest ws : List String} {n path text : String}
variable {bytes : List UInt8}

/-- A file of the folder whose text lists 2048 words is loaded as a list
of them. -/
theorem load_inFolder (hpath : Folder.IsPathOf (here ++ [n]) path)
    (hway : folder.Way here)
    (hfile : folder.lookup (here ++ [n]) = some (.file bytes))
    (htext : IsTextOf text bytes) (hws : Text.AreListed ws text)
    (hlen : ws.length = 2048) :
    ∃ l, (Environment.inFolder folder vocabulary colour).load (.file path)
        = .ok l ∧ l.words = ws ∧ l.Represents ws := by
  have hread : folder.read path = .ok text :=
    (Folder.read_eq_ok_iff hpath).2 ⟨hway, bytes, hfile, htext⟩
  exact load_of_listed hread hws hlen

/-- A path whose first name that is no directory's is borne by nothing
fails as an absent file. -/
theorem load_inFolder_of_isAbsent
    (hpath : Folder.IsPathOf (here ++ n :: rest) path)
    (hway : folder.Way here) (hnone : folder.IsAbsent (here ++ [n])) :
    (Environment.inFolder folder vocabulary colour).load (.file path)
      = .error (.file .absent) := by
  have hread : folder.read path = .error .absent := by
    rw [Folder.read_of_isPathOf hpath,
      (Folder.walk_eq_iff hpath).2 (.absent hway hnone)]
    rfl
  exact load_of_unreadable hread

/-- Whatever path it is loaded from, a list has the words that a file of
the folder lists. -/
theorem lookup_of_load_inFolder {l : WordList}
    (h : (Environment.inFolder folder vocabulary colour).load (.file path)
      = .ok l) :
    ∃ ns bytes text, folder.lookup ns = some (.file bytes)
      ∧ IsTextOf text bytes ∧ Text.AreListed l.words text := by
  have hloading := loading_load
    (Environment.inFolder folder vocabulary colour) (.file path)
  rw [h] at hloading
  cases hloading with
  | listed hread hws =>
      obtain ⟨ns, bytes, hfile, htext⟩ := Folder.lookup_of_read hread
      exact ⟨ns, bytes, _, hfile, htext, hws⟩

end Mnemonic.CommandLine
