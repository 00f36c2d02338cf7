/-
Writing down what a command is to do.

A task, a sentence and the choice of a word list can always be written
as arguments: an option with a value takes it behind an equals sign in
the same argument, where it may begin with anything (`step_assign`), so
there is no sentence that cannot be passed. Reading these arguments
gives back what was written (`request_spelling`).

The choice of a word list is not to choose, to name a language, or to
name a file. No path is empty, which a choice carries with it, as an
argument that says otherwise is refused.
-/
import Mnemonic.CommandLine.Arguments

namespace Mnemonic.CommandLine

-- ======================================================== the arguments

/-- A word list as arguments choose it. -/
inductive Choice where
  | default
  | language (l : Language)
  | file (path : String) (named : path ≠ "")

/-- The long name of an option with a value. -/
def Valued.longName : Valued → String
  | .sentence => "mnemonic"
  | .file => "wordlist"
  | .language => "language"

/-- The argument that gives an option its value. -/
def Valued.assign (o : Valued) (value : String) : String :=
  "--" ++ o.longName ++ "=" ++ value

/-- The command that carries out a task. -/
def Task.command : Task → Command
  | .decode _ => .decode
  | .check => .check
  | .expand => .expand

def Task.flags : Task → List String
  | .decode true => ["--checksum"]
  | _ => []

namespace Choice

def source : Choice → Source
  | default => .bundled .english
  | language l => .bundled l
  | file path _ => .file path

def arguments : Choice → List String
  | default => []
  | language l => [Valued.language.assign l.name]
  | file path _ => [Valued.file.assign path]

end Choice

/-- Arguments that ask for a task on a sentence and a word list. -/
def spelling (t : Task) (sentence : String) (choice : Choice) :
    List String :=
  t.command.name ::
    (t.flags ++ Valued.sentence.assign sentence :: choice.arguments)

-- ========================================================= reading them

/-- A long option is cut at its first equals sign. -/
theorem cutLong_append {name v : List Char} (h : '=' ∉ name) :
    cutLong (name ++ '=' :: v)
      = (String.ofList name, some (String.ofList v)) := by
  have hname : ∀ c ∈ name, (c != '=') = true := by
    intro c hc
    rw [bne_iff_ne]
    rintro rfl
    exact h hc
  have htake : (name ++ '=' :: v).takeWhile (· != '=') = name := by
    rw [List.takeWhile_append_of_pos hname, List.takeWhile_cons]
    simp
  simp only [cutLong, htake, List.drop_left]

namespace Given

variable {g : Given}

/-- The name of a language sets it, if none is set yet. -/
theorem setValue_language (h : g.language = none)
    (l : Language) :
    g.setValue .language l.name = .ok { g with language := some l } := by
  unfold Given.setValue
  simp only [h, Language.ofName?_name]
  rfl

theorem setValue_file (h : g.file = none) {path : String}
    (named : path ≠ "") :
    g.setValue .file path = .ok { g with file := some path } := by
  have hempty : path.isEmpty = false := by
    rw [Bool.eq_false_iff, ne_eq, String.isEmpty_iff]
    exact named
  unfold Given.setValue
  rw [h]
  show (if path.isEmpty then _ else _) = _
  rw [hempty]
  rfl

end Given

namespace Reading

variable {r : Reading} {c : Command} {g : Given} {o : Valued} {v : String}

/-- An option that is given its value behind an equals sign takes it,
whatever it is. -/
theorem step_assign (hpending : r.pending = none)
    (hended : r.ended = false) (c : Command) (o : Valued) (v : String) :
    step c r (o.assign v) = r.setValue o (some v) := by
  have hcut : cutLong (o.longName.toList ++ '=' :: v.toList)
      = (o.longName, some v) := by
    rw [cutLong_append, String.ofList_toList, String.ofList_toList]
    cases o <;> decide
  have hopt : (Opt.ofLongName? o.longName).filter (Opt.allowed (some c))
      = some (.valued o) := by
    cases o <;> rfl
  have harg : (o.assign v).toList
      = '-' :: '-' :: (o.longName.toList ++ '=' :: v.toList) := by
    unfold Valued.assign
    rw [String.toList_append, String.toList_append, String.toList_append,
      List.append_assoc]
    rfl
  -- the name is one that every command knows, and its value is there
  have hlong : r.long c (o.assign v)
      (o.longName.toList ++ '=' :: v.toList) = r.setValue o (some v) := by
    unfold Reading.long
    simp only [hcut, hopt]
  rw [← hlong]
  unfold step
  rw [hended, hpending, harg]
  cases o <;> rfl

theorem setValue_of_given (h : r.given.setValue o v = .ok g) :
    r.setValue o (some v) = .ok { r with given := g, pending := none } := by
  unfold Reading.setValue
  simp only [h]
  rfl

/-- The reading of a task's own arguments. -/
theorem foldlM_flags (t : Task) :
    t.flags.foldlM (step t.command) {}
      = .ok { given := { checksum := t.flags ≠ [] } } := by
  cases t with
  | decode withChecksum => cases withChecksum <;> rfl
  | check => rfl
  | expand => rfl

end Reading

/-- The options that a spelling gives. -/
def Choice.given (choice : Choice) (t : Task) (sentence : String) :
    Given where
  sentence := some sentence
  file :=
    match choice with
    | .file path _ => some path
    | _ => none
  language :=
    match choice with
    | .language l => some l
    | _ => none
  checksum := t.flags ≠ []

/-- Reading the options in their plain spelling gives back what was
spelt. -/
theorem readOptions_spelling (t : Task) (sentence : String)
    (choice : Choice) :
    readOptions t.command
        (t.flags ++ Valued.sentence.assign sentence :: choice.arguments)
      = .ok (choice.given t sentence) := by
  unfold readOptions
  rw [List.foldlM_append, Reading.foldlM_flags]
  show ((List.foldlM _ _ (Valued.sentence.assign sentence :: _)) >>= _) = _
  rw [List.foldlM_cons, Reading.step_assign rfl rfl]
  cases choice with
  | default => rfl
  | language l =>
      show ((List.foldlM _ _ [Valued.language.assign l.name]) >>= _) = _
      rw [List.foldlM_cons, Reading.step_assign rfl rfl,
        Reading.setValue_of_given (Given.setValue_language rfl l)]
      rfl
  | file path named =>
      show ((List.foldlM _ _ [Valued.file.assign path]) >>= _) = _
      rw [List.foldlM_cons, Reading.step_assign rfl rfl,
        Reading.setValue_of_given (Given.setValue_file rfl named)]
      rfl

/-- Every task on every sentence and every choice of a word list can be
asked for. -/
theorem request_spelling (t : Task) (sentence : String)
    (choice : Choice) :
    request (spelling t sentence choice)
      = .ok (.perform ⟨t, sentence, choice.source, false⟩) := by
  have hword : Command.ofWord? t.command.name = some t.command := by
    cases t <;> rfl
  have htask : (choice.given t sentence).task t.command = t := by
    cases t with
    | decode withChecksum => cases withChecksum <;> rfl
    | check => rfl
    | expand => rfl
  have hinvocation : (choice.given t sentence).invocation t.command false
      = .ok ⟨t, sentence, choice.source, false⟩ := by
    unfold Given.invocation
    rw [htask]
    cases choice <;> rfl
  unfold request spelling requestFrom
  simp only [hword, readOptions_spelling, hinvocation]
  rfl

end Mnemonic.CommandLine
