/-
What setting options comes to.

Setting refuses an option that is given twice and keeps one apart from
another, so it adds just the item that is set (`has_of_sets`). When each
option is given once the order leaves no trace: the result is the options
that have just what was given (`foldlM_give`).

A value need not be known to say that its option has been given. This
much is kept of items that are read as other ones of the same options
(`Covers.snoc`), or end in a fault.
-/
import Mathlib.Data.List.Nodup
import Mnemonic.Proofs.CommandLine.Spelling

namespace Mnemonic.CommandLine

variable {g g' : Given} {i j : Item} {is : List Item}

-- =============================================================== items

/-- The flags that do not end the reading. -/
inductive Switch where
  | verbose | checksum
deriving DecidableEq, Repr

def Switch.flag : Switch → Flag
  | verbose => .verbose
  | checksum => .checksum

/-- One option as it is given, whatever the way of writing. -/
inductive Item where
  | value (o : Valued) (v : String)
  | flag (f : Switch)
deriving DecidableEq, Repr

/-- A language can be told from its name. -/
theorem Language.name_injective : Function.Injective Language.name := by
  intro l k h
  have hsame := congrArg Language.ofName? h
  rw [ofName?_name, ofName?_name] at hsame
  exact Option.some.inj hsame

theorem Language.name_of_ofName? {v : String} {l : Language}
    (h : ofName? v = some l) : l.name = v := by
  have hname := List.find?_some h
  exact beq_iff_eq.1 hname

/-- The option that an item is for. -/
def Item.opt : Item → Opt
  | .value o _ => .valued o
  | .flag f => .flag f.flag

/-- The option of an item takes it: any sentence will do, any path that
is not empty, and the name of any language. -/
def Item.Valid : Item → Prop
  | .value .file v => v ≠ ""
  | .value .language v => ∃ l : Language, l.name = v
  | _ => True

namespace Given

/-- Sets what an item gives. -/
def give (g : Given) : Item → Except Stop Given
  | .value o v => g.setValue o v
  | .flag f => g.setFlag f.flag

/-- The value of an option, as it is written. -/
def value (g : Given) : Valued → Option String
  | .sentence => g.sentence
  | .file => g.file
  | .language => g.language.map Language.name

/-- An item has been given. -/
def Has (g : Given) : Item → Prop
  | .value o v => g.value o = some v
  | .flag .verbose => g.verbose = true
  | .flag .checksum => g.checksum = true

/-- Options are what has been given. -/
theorem eq_of_has (h : ∀ i, g.Has i ↔ g'.Has i) : g = g' := by
  have hlanguage : g.language.map Language.name
      = g'.language.map Language.name :=
    Option.ext fun v => h (.value .language v)
  have hl := Option.map_injective Language.name_injective hlanguage
  obtain ⟨s, f, l, k, b⟩ := g
  obtain ⟨s', f', l', k', b'⟩ := g'
  obtain rfl : s = s' := Option.ext fun v => h (.value .sentence v)
  obtain rfl : f = f' := Option.ext fun v => h (.value .file v)
  obtain rfl : k = k' := Bool.eq_iff_iff.2 (h (.flag .checksum))
  obtain rfl : b = b' := Bool.eq_iff_iff.2 (h (.flag .verbose))
  obtain rfl : l = l' := hl
  rfl

/-- Nothing is given by no options. -/
theorem not_has_empty (i : Item) : ¬ ({} : Given).Has i := by
  rcases i with ⟨_ | _ | _, v⟩ | (_ | _)
  all_goals
    intro h
    cases h

/-- What setting an item does if it is not refused. -/
inductive Sets (g : Given) : Item → Given → Prop where
  | sentence {v : String} : g.sentence = none →
      Sets g (.value .sentence v) { g with sentence := some v }
  | file {v : String} : g.file = none → v ≠ "" →
      Sets g (.value .file v) { g with file := some v }
  | language {l : Language} : g.language = none →
      Sets g (.value .language l.name) { g with language := some l }
  | verbose : g.verbose = false →
      Sets g (.flag .verbose) { g with verbose := true }
  | checksum : g.checksum = false →
      Sets g (.flag .checksum) { g with checksum := true }

/-- What a setting sets is what giving it leaves. -/
theorem give_of_sets (h : Sets g i g') : g.give i = .ok g' := by
  cases h with
  | sentence hnone =>
      show Given.setValue g .sentence _ = _
      unfold Given.setValue
      rw [hnone]
      rfl
  | file hnone hne => exact setValue_file hnone hne
  | language hnone => exact setValue_language hnone _
  | verbose hfalse =>
      show Given.setFlag g .verbose = _
      unfold Given.setFlag
      rw [hfalse]
      rfl
  | checksum hfalse =>
      show Given.setFlag g .checksum = _
      unfold Given.setFlag
      rw [hfalse]
      rfl

/-- Setting adds the item that is set and no other. -/
theorem has_of_sets (h : Sets g i g') :
    g'.Has j ↔ j = i ∨ g.Has j := by
  cases h with
  | @sentence v hnone =>
      rcases j with ⟨_ | _ | _, u⟩ | (_ | _)
      all_goals simp [Has, value, hnone, eq_comm (a := v)]
  | @file v hnone hne =>
      rcases j with ⟨_ | _ | _, u⟩ | (_ | _)
      all_goals simp [Has, value, hnone, eq_comm (a := v)]
  | @language l hnone =>
      rcases j with ⟨_ | _ | _, u⟩ | (_ | _)
      all_goals simp [Has, value, hnone, eq_comm (a := l.name)]
  | verbose hfalse =>
      rcases j with ⟨_ | _ | _, u⟩ | (_ | _)
      all_goals simp [Has, value, hfalse]
  | checksum hfalse =>
      rcases j with ⟨_ | _ | _, u⟩ | (_ | _)
      all_goals simp [Has, value, hfalse]

/-- An item can be set if its option takes it and has none yet. -/
theorem exists_sets (hvalid : i.Valid)
    (hfree : ∀ j : Item, j.opt = i.opt → ¬ g.Has j) :
    ∃ g', Sets g i g' := by
  rcases i with ⟨_ | _ | _, v⟩ | (_ | _)
  · have hnone : g.sentence = none :=
      Option.eq_none_iff_forall_ne_some.2 fun u =>
        hfree (.value .sentence u) rfl
    exact ⟨_, .sentence hnone⟩
  · have hnone : g.file = none :=
      Option.eq_none_iff_forall_ne_some.2 fun u =>
        hfree (.value .file u) rfl
    exact ⟨_, .file hnone hvalid⟩
  · obtain ⟨l, rfl⟩ := hvalid
    have hnone : g.language.map Language.name = none :=
      Option.eq_none_iff_forall_ne_some.2 fun u =>
        hfree (.value .language u) rfl
    exact ⟨_, .language (Option.map_eq_none_iff.1 hnone)⟩
  · exact ⟨_, .verbose (Bool.eq_false_iff.2 (hfree (.flag .verbose) rfl))⟩
  · exact ⟨_, .checksum
      (Bool.eq_false_iff.2 (hfree (.flag .checksum) rfl))⟩

/-- Items for different options are set in any order, and are what has
been given in the end. -/
theorem exists_foldlM_give (hvalid : ∀ i ∈ is, i.Valid)
    (hnodup : (is.map Item.opt).Nodup)
    (hfree : ∀ i ∈ is, ∀ j : Item, j.opt = i.opt → ¬ g.Has j) :
    ∃ g', is.foldlM give g = .ok g' ∧ ∀ j, g'.Has j ↔ j ∈ is ∨ g.Has j := by
  induction is generalizing g with
  | nil => exact ⟨g, rfl, by simp⟩
  | cons i is ih =>
      rw [List.map_cons, List.nodup_cons] at hnodup
      obtain ⟨hnew, hnodup⟩ := hnodup
      rw [List.forall_mem_cons] at hvalid hfree
      obtain ⟨g₁, hset⟩ := exists_sets hvalid.1 hfree.1
      -- Those to come are still free, as their options are other ones.
      have hfree₁ : ∀ k ∈ is, ∀ j : Item, j.opt = k.opt → ¬ g₁.Has j := by
        intro k hk j hj hhas
        rcases (has_of_sets hset).1 hhas with rfl | hhas
        · exact hnew (hj ▸ List.mem_map_of_mem hk)
        · exact hfree.2 k hk j hj hhas
      obtain ⟨g₂, hg₂, hhas⟩ := ih hvalid.2 hnodup hfree₁
      refine ⟨g₂, ?_, fun j => ?_⟩
      · rw [List.foldlM_cons, give_of_sets hset]
        exact hg₂
      · rw [hhas, has_of_sets hset, List.mem_cons]
        tauto

-- ======================================================= whole options

/-- What gives these options, each once. -/
def items (g : Given) : List Item :=
  ((g.value .sentence).map (.value .sentence)).toList
    ++ ((g.value .file).map (.value .file)).toList
    ++ ((g.value .language).map (.value .language)).toList
    ++ (if g.checksum then [.flag .checksum] else [])
    ++ (if g.verbose then [.flag .verbose] else [])

/-- The settings listed are those that have been given. -/
theorem mem_items : i ∈ g.items ↔ g.Has i := by
  rcases i with ⟨_ | _ | _, v⟩ | (_ | _)
  all_goals simp [items, Has, value]

/-- The options of such items, which are in this order. -/
theorem sublist_opts (g : Given) :
    (g.items.map Item.opt).Sublist
      ([.valued .sentence] ++ [.valued .file] ++ [.valued .language]
        ++ [.flag .checksum] ++ [.flag .verbose]) := by
  have hvalue : ∀ o,
      (((g.value o).map (Item.value o)).toList.map Item.opt).Sublist
        [.valued o] := by
    intro o
    cases g.value o with
    | none => exact List.nil_sublist _
    | some v => exact List.Sublist.refl _
  have hflag : ∀ (b : Bool) (f : Switch),
      ((if b then [Item.flag f] else []).map Item.opt).Sublist
        [.flag f.flag] := by
    intro b f
    cases b with
    | false => exact List.nil_sublist _
    | true => exact List.Sublist.refl _
  unfold items
  simp only [List.map_append]
  exact ((((hvalue _).append (hvalue _)).append (hvalue _)).append
    (hflag _ .checksum)).append (hflag _ .verbose)

/-- No option is listed twice. -/
theorem nodup_items (g : Given) : (g.items.map Item.opt).Nodup :=
  (sublist_opts g).nodup (by decide)

/-- Whatever has been given was valid, unless it is an empty path. -/
theorem valid_of_has (hfile : g.file ≠ some "") (h : g.Has i) :
    i.Valid := by
  rcases i with ⟨_ | _ | _, v⟩ | (_ | _)
  · trivial
  · rintro rfl
    exact hfile h
  · obtain ⟨l, -, hl⟩ := Option.map_eq_some_iff.1 h
    exact ⟨l, hl⟩
  · trivial
  · trivial

/-- Options are made by setting their items in any order. -/
theorem foldlM_give (hfile : g.file ≠ some "") (h : is.Perm g.items) :
    is.foldlM give {} = .ok g := by
  have hvalid : ∀ i ∈ is, i.Valid := fun i hi =>
    valid_of_has hfile (mem_items.1 (h.mem_iff.1 hi))
  have hnodup : (is.map Item.opt).Nodup :=
    (h.map Item.opt).nodup_iff.2 (nodup_items g)
  obtain ⟨g', hg', hhas⟩ := exists_foldlM_give hvalid hnodup
    fun i _ j _ => not_has_empty j
  -- in any order the same has been given in the end
  have hsame : g' = g := by
    apply eq_of_has
    intro j
    rw [hhas, h.mem_iff, mem_items, or_iff_left (not_has_empty j)]
  rw [hg', hsame]

end Given

-- ============================================================== faults

/-- A result is a fault, or else as it should be. It is not the request
for the version. -/
inductive FaultOr {α : Type} (P : α → Prop) : Except Stop α → Prop where
  | fault (e : UsageError) : FaultOr P (.error (.fault e))
  | ok {a : α} : P a → FaultOr P (.ok a)

namespace FaultOr

variable {α β : Type} {P : α → Prop} {Q : β → Prop}

/-- A reading that did not stop has the property. -/
theorem of_ok {a : α} (h : FaultOr P (.ok a)) : P a := by
  cases h with
  | ok h => exact h

/-- A weaker property holds as well. -/
theorem mono {Q : α → Prop} {x : Except Stop α} (h : FaultOr P x)
    (hPQ : ∀ a, P a → Q a) : FaultOr Q x := by
  cases h with
  | fault e => exact .fault e
  | ok h => exact .ok (hPQ _ h)

/-- Two readings in a row stop in a fault or end with the property of
the second. -/
theorem bind {x : Except Stop α} {f : α → Except Stop β}
    (hx : FaultOr P x) (hf : ∀ a, P a → FaultOr Q (f a)) :
    FaultOr Q (x >>= f) := by
  cases hx with
  | fault e => exact .fault e
  | ok h => exact hf _ h

end FaultOr

namespace Given

/-- Setting an item does what it should or is refused. -/
theorem faultOr_give (g : Given) (i : Item) :
    FaultOr (Sets g i) (g.give i) := by
  rcases i with ⟨_ | _ | _, v⟩ | (_ | _)
  · show FaultOr _ (g.setValue .sentence v)
    unfold Given.setValue
    cases hnone : g.sentence with
    | some u => exact .fault _
    | none => exact .ok (.sentence hnone)
  · -- an empty path is a fault of its own, besides a second path
    show FaultOr _ (g.setValue .file v)
    cases hnone : g.file with
    | some u =>
        unfold Given.setValue
        rw [hnone]
        exact .fault _
    | none =>
        by_cases hne : v = ""
        · subst hne
          unfold Given.setValue
          rw [hnone]
          exact .fault _
        · rw [setValue_file hnone hne]
          exact .ok (.file hnone hne)
  · -- so is a name that no language has
    show FaultOr _ (g.setValue .language v)
    cases hnone : g.language with
    | some u =>
        unfold Given.setValue
        rw [hnone]
        exact .fault _
    | none =>
        cases hl : Language.ofName? v with
        | none =>
            unfold Given.setValue
            simp only [hnone, hl]
            exact .fault _
        | some l =>
            obtain rfl := Language.name_of_ofName? hl
            rw [setValue_language hnone]
            exact .ok (.language hnone)
  · show FaultOr _ (g.setFlag .verbose)
    unfold Given.setFlag
    cases hfalse : g.verbose with
    | true => exact .fault _
    | false => exact .ok (.verbose hfalse)
  · show FaultOr _ (g.setFlag .checksum)
    unfold Given.setFlag
    cases hfalse : g.checksum with
    | true => exact .fault _
    | false => exact .ok (.checksum hfalse)

-- ====================================================== options unseen

/-- The options that have been given are those of some items. -/
def Covers (g : Given) (is : List Item) : Prop :=
  ∀ o, (∃ i : Item, i.opt = o ∧ g.Has i) ↔ o ∈ is.map Item.opt

theorem covers_nil : ({} : Given).Covers [] := by
  intro o
  simp [not_has_empty]

/-- Setting an item adds its option, so it may stand for another one of
the same option. -/
theorem Covers.snoc (h : g.Covers is) (hset : Sets g i g')
    (hopt : j.opt = i.opt) : g'.Covers (is ++ [j]) := by
  intro o
  rw [List.map_append, List.mem_append, ← h o]
  simp only [has_of_sets hset, List.map_cons, List.map_nil,
    List.mem_singleton, hopt]
  constructor
  · rintro ⟨k, rfl, rfl | hk⟩
    · exact .inr rfl
    · exact .inl ⟨k, rfl, hk⟩
  · rintro (⟨k, rfl, hk⟩ | rfl)
    · exact ⟨k, rfl, .inr hk⟩
    · exact ⟨i, rfl, .inl rfl⟩

/-- An option has a value exactly if a setting of it has been read. -/
theorem Covers.value_ne_none_iff (h : g.Covers is) (o : Valued) :
    g.value o ≠ none ↔ .valued o ∈ is.map Item.opt := by
  rw [← h (.valued o), Option.ne_none_iff_exists']
  constructor
  · rintro ⟨v, hv⟩
    exact ⟨.value o v, rfl, hv⟩
  · rintro ⟨_ | _, hi, hhas⟩
    · cases hi
      exact ⟨_, hhas⟩
    · cases hi

end Given

end Mnemonic.CommandLine
