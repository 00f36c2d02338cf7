/-
The ways to write options.

A piece is an option with the value it is given, or some flags: behind a
letter, with the letters of flags joined in front of it, or behind a long
name; and the value in an argument of its own, or in the same one. What a
piece is read as can be said without going through its arguments
(`foldlM_arguments`): its flags are set one after the other, and then its
option takes the value as the way of writing has it.

The ways differ only for some values (`take_of_ordinary`). One in an
argument of its own must not look like an option, one joined to a letter
must not be empty, and loses an equals sign at its front.
-/
import Mathlib.Data.List.TakeWhile
import Mnemonic.Proofs.CommandLine.Settings

namespace Mnemonic.CommandLine

-- ===================================================== what is written

namespace Switch

def letter : Switch → Char
  | verbose => 'v'
  | checksum => 'c'

def longName : Switch → String
  | verbose => "verbose"
  | checksum => "checksum"

end Switch

/-- The letter of an option with a value. -/
def Valued.letter : Valued → Char
  | .sentence => 'm'
  | .file => 'w'
  | .language => 'l'

/-- How a value is written behind a letter: in an argument of its own, in
the same argument, or there with an equals sign between. -/
inductive Way where
  | apart | joined | equals
deriving DecidableEq, Repr

/-- What an argument has behind the letter of an option. -/
def Way.behind : Way → String → List Char
  | apart, _ => []
  | joined, v => v.toList
  | equals, v => '=' :: v.toList

/-- Some options as they are written together. -/
inductive Piece where
  /-- The letters of flags, one or more. -/
  | letters (f : Switch) (fs : List Switch)
  | name (f : Switch)
  /-- An option by its letter, with letters of flags in front of it. -/
  | short (fs : List Switch) (o : Valued) (way : Way) (v : String)
  /-- An option by its name, with the value in an argument of its own. -/
  | long (o : Valued) (v : String)
  | assign (o : Valued) (v : String)
deriving DecidableEq, Repr

/-- The argument of some flags' letters and what stands behind them. -/
def lettered (fs : List Switch) (rest : List Char) : String :=
  String.ofList ('-' :: (fs.map Switch.letter ++ rest))

namespace Piece

/-- The first argument of a piece. -/
def head : Piece → String
  | letters f fs => lettered (f :: fs) []
  | name f => "--" ++ f.longName
  | short fs o way v => lettered fs (o.letter :: way.behind v)
  | long o _ => "--" ++ o.longName
  | assign o v => o.assign v

/-- The other arguments: a value, if it stands apart. -/
def tail : Piece → List String
  | short _ _ .apart v => [v]
  | long _ v => [v]
  | _ => []

def arguments (p : Piece) : List String := p.head :: p.tail

/-- What a piece gives, in the order of writing. -/
def items : Piece → List Item
  | letters f fs => (f :: fs).map .flag
  | name f => [.flag f]
  | short fs o _ v => fs.map .flag ++ [.value o v]
  | long o v => [.value o v]
  | assign o v => [.value o v]

end Piece

-- ==================================================== flags and values

namespace Given

/-- The reading of what is given so far, with no value to come. -/
def reading (g : Given) : Reading := { given := g }

/-- Sets the flag of a letter or a name in an argument. -/
def switch (c : Command) (argument : String) (g : Given) (f : Switch) :
    Except Stop Given :=
  if Opt.allowed (some c) (.flag f.flag) then g.setFlag f.flag
  else .error (.fault (.unknownOption argument))

/-- Gives an option its value as a way of writing has it. -/
def take (g : Given) (o : Valued) (v : String) : Way → Except Stop Reading
  | .apart =>
      if looksLikeOption v then .error (.fault (.missingValue o))
      else g.reading.setValue o (some v)
  | .joined => g.reading.setValue o (attached v.toList)
  | .equals => g.reading.setValue o (some v)

end Given

/-- What a piece is read as: its flags one by one, and then its option
with the value. -/
def Piece.read (c : Command) (g : Given) (p : Piece) :
    Except Stop Reading :=
  match p with
  | .letters f fs => do
      let g ← (f :: fs).foldlM (Given.switch c p.head) g
      return g.reading
  | .name f => do
      let g ← g.switch c p.head f
      return g.reading
  | .short fs o way v => do
      let g ← fs.foldlM (Given.switch c p.head) g
      g.take o v way
  | .long o v => g.take o v .apart
  | .assign o v => g.take o v .equals

namespace Reading

variable {c : Command} {g : Given} {o : Valued} {v argument : String}

theorem setFlag_reading (f : Flag) :
    g.reading.setFlag f = g.setFlag f >>= fun g => pure g.reading := rfl

/-- A letter without a value does what its option does, and the letters
behind it are read next. -/
theorem letters_switch (f : Switch) (cs : List Char) :
    g.reading.letters c argument (f.letter :: cs)
      = g.switch c argument f
          >>= fun g => g.reading.letters c argument cs := by
  have hopt : Opt.ofLetter? f.letter = some (.flag f.flag) := by
    cases f <;> rfl
  unfold Given.switch
  rw [Reading.letters, hopt, Option.filter_some]
  cases Opt.allowed (some c) (.flag f.flag) with
  | false => rfl
  | true =>
      show (g.reading.setFlag f.flag >>= _) = _
      rw [setFlag_reading, bind_assoc]
      rfl

/-- Letters without values are read one by one, in front of whatever
follows them in the argument. -/
theorem letters_append (fs : List Switch) (cs : List Char) :
    g.reading.letters c argument (fs.map Switch.letter ++ cs)
      = fs.foldlM (Given.switch c argument) g
          >>= fun g => g.reading.letters c argument cs := by
  induction fs generalizing g with
  | nil => rfl
  | cons f fs ih =>
      rw [List.map_cons, List.cons_append, letters_switch,
        List.foldlM_cons, bind_assoc]
      exact bind_congr fun _ => ih

/-- A letter with a value takes the rest of the argument as this
value. -/
theorem letters_valued (cs : List Char) :
    g.reading.letters c argument (o.letter :: cs)
      = g.reading.setValue o (attached cs) := by
  have hopt : (Opt.ofLetter? o.letter).filter (Opt.allowed (some c))
      = some (.valued o) := by
    cases o <;> rfl
  rw [Reading.letters, hopt]

-- ==================================================== single arguments

/-- An argument of letters is read letter by letter. -/
theorem step_lettered {fs : List Switch} {x : Char} {cs rest : List Char}
    (h : fs.map Switch.letter ++ rest = x :: cs) (hx : x ≠ '-') :
    step c g.reading (lettered fs rest)
      = fs.foldlM (Given.switch c (lettered fs rest)) g
          >>= fun g => g.reading.letters c (lettered fs rest) rest := by
  have harg : (lettered fs rest).toList = '-' :: x :: cs := by
    unfold lettered
    rw [String.toList_ofList, h]
  rw [← letters_append, h]
  unfold step
  simp only [Given.reading, harg, Bool.false_eq_true, if_false]
  split
  · rename_i heq
    cases heq
    exact absurd rfl hx
  · rename_i heq
    cases heq
    exact absurd rfl hx
  · rename_i heq
    cases heq
    rfl
  · rename_i hother
    exact absurd rfl (hother x cs)

/-- An argument with a name alone is read as the option that has it. -/
theorem step_name {name : String} {x : Char} {cs : List Char}
    (hname : name.toList = x :: cs) (hsign : '=' ∉ name.toList) :
    step c g.reading ("--" ++ name)
      = match (Opt.ofLongName? name).filter (Opt.allowed (some c)) with
        | none => .error (.fault (.unknownOption ("--" ++ name)))
        | some (.valued o) => g.reading.setValue o none
        | some (.flag f) => g.reading.setFlag f := by
  have harg : ("--" ++ name).toList = '-' :: '-' :: x :: cs := by
    rw [String.toList_append, hname]
    rfl
  -- without an equals sign the whole name is in front of the cut
  have hcut : cutLong (x :: cs) = (name, none) := by
    have hall : ∀ y ∈ name.toList, (y != '=') = true := by
      intro y hy
      rw [bne_iff_ne]
      rintro rfl
      exact hsign hy
    rw [← hname]
    simp only [cutLong, List.takeWhile_eq_self_iff.2 hall,
      List.drop_length, String.ofList_toList]
  have hstep : step c g.reading ("--" ++ name)
      = g.reading.long c ("--" ++ name) (x :: cs) := by
    unfold step
    simp only [Given.reading, harg, Bool.false_eq_true, if_false]
  rw [hstep]
  unfold Reading.long
  simp only [hcut]
  rcases (Opt.ofLongName? name).filter (Opt.allowed (some c)) with
    _ | (o | f)
  · rfl
  · rfl
  · rfl

/-- A long name alone waits for its value. -/
theorem step_longName :
    step c g.reading ("--" ++ o.longName)
      = .ok { g.reading with pending := some o } := by
  cases o with
  | sentence => exact step_name rfl (by decide)
  | file => exact step_name rfl (by decide)
  | language => exact step_name rfl (by decide)

/-- The long name of an option without a value does what the option
does. -/
theorem step_switchName (f : Switch) :
    step c g.reading ("--" ++ f.longName)
      = g.switch c ("--" ++ f.longName) f >>= fun g => pure g.reading := by
  have hopt : Opt.ofLongName? f.longName = some (.flag f.flag) := by
    cases f <;> rfl
  have hsign : '=' ∉ f.longName.toList := by
    cases f <;> decide
  obtain ⟨x, cs, hname⟩ : ∃ x cs, f.longName.toList = x :: cs := by
    cases f <;> exact ⟨_, _, rfl⟩
  rw [step_name hname hsign, hopt, Option.filter_some]
  unfold Given.switch
  cases Opt.allowed (some c) (.flag f.flag) <;> rfl

/-- A value in an argument of its own goes to the option that waits for
it. -/
theorem step_value :
    step c { g.reading with pending := some o } v = g.take o v .apart := rfl

end Reading

-- ============================================================== pieces

/-- No letter is a dash, so a dash and letters are never taken for a
long name or the mark that ends the options. -/
theorem Switch.letter_ne_dash (f : Switch) : f.letter ≠ '-' := by
  cases f <;> decide

theorem Valued.letter_ne_dash (o : Valued) : o.letter ≠ '-' := by
  cases o <;> decide

variable {c : Command} {g : Given}

/-- The letters of flags and of an option begin with no dash. -/
theorem exists_map_letter_append (fs : List Switch) (o : Valued)
    (rest : List Char) :
    ∃ x cs, fs.map Switch.letter ++ o.letter :: rest = x :: cs
      ∧ x ≠ '-' := by
  cases fs with
  | nil => exact ⟨_, _, rfl, o.letter_ne_dash⟩
  | cons f fs => exact ⟨_, _, rfl, f.letter_ne_dash⟩

/-- A dash with a letter behind it looks like an option. -/
theorem looksLikeOption_of_toList {s : String} {x : Char}
    {cs : List Char} (h : s.toList = '-' :: x :: cs) :
    looksLikeOption s = true := by
  unfold looksLikeOption
  rw [h]
  rfl

/-- A piece begins with what looks like an option. -/
theorem looksLikeOption_head (p : Piece) :
    looksLikeOption p.head = true := by
  have hlong : ∀ s : String, looksLikeOption ("--" ++ s) = true := by
    intro s
    apply looksLikeOption_of_toList
    rw [String.toList_append]
    rfl
  cases p with
  | letters f fs => exact looksLikeOption_of_toList String.toList_ofList
  | name f => exact hlong _
  | short fs o way v =>
      obtain ⟨x, cs, hfirst, -⟩ := exists_map_letter_append fs o
        (way.behind v)
      apply looksLikeOption_of_toList
      unfold Piece.head lettered
      rw [String.toList_ofList, hfirst]
  | long o v => exact hlong _
  | assign o v =>
      show looksLikeOption ("--" ++ o.longName ++ "=" ++ v) = true
      rw [String.append_assoc, String.append_assoc]
      exact hlong _

/-- An option by its letter: the flags in front of it are set, and its
argument leaves it with what stands behind it. -/
theorem step_short (fs : List Switch) (o : Valued) (rest : List Char) :
    Reading.step c g.reading (lettered fs (o.letter :: rest))
      = fs.foldlM (Given.switch c (lettered fs (o.letter :: rest))) g
          >>= fun g => g.reading.setValue o (attached rest) := by
  obtain ⟨x, cs, hfirst, hx⟩ := exists_map_letter_append fs o rest
  rw [Reading.step_lettered hfirst hx]
  exact bind_congr fun _ => Reading.letters_valued rest

/-- The arguments of a piece are read as the piece is. -/
theorem foldlM_arguments (p : Piece) :
    p.arguments.foldlM (Reading.step c) g.reading = p.read c g := by
  cases p with
  -- a piece is one argument, unless its value stands apart
  | letters f fs =>
      have hhead := Reading.step_lettered (c := c) (g := g)
        (List.append_nil ((f :: fs).map Switch.letter)) f.letter_ne_dash
      show (Reading.step c g.reading (lettered (f :: fs) []) >>= pure) = _
      rw [bind_pure, hhead]
      rfl
  | name f =>
      show (Reading.step c g.reading ("--" ++ f.longName) >>= pure) = _
      rw [bind_pure, Reading.step_switchName]
      rfl
  | short fs o way v =>
      cases way with
      | apart =>
          show (Reading.step c g.reading (lettered fs [o.letter])
            >>= fun r => Reading.step c r v >>= pure) = _
          rw [step_short, bind_assoc]
          exact bind_congr fun g => bind_pure (g.take o v .apart)
      | joined =>
          show (Reading.step c g.reading
            (lettered fs (o.letter :: v.toList)) >>= pure) = _
          rw [bind_pure, step_short]
          rfl
      | equals =>
          have hattached : attached ('=' :: v.toList) = some v := by
            show some (String.ofList v.toList) = some v
            rw [String.ofList_toList]
          show (Reading.step c g.reading
            (lettered fs (o.letter :: '=' :: v.toList)) >>= pure) = _
          rw [bind_pure, step_short, hattached]
          rfl
  | long o v =>
      show (Reading.step c g.reading ("--" ++ o.longName)
        >>= fun r => Reading.step c r v >>= pure) = _
      rw [Reading.step_longName]
      show (Reading.step c { g.reading with pending := some o } v
        >>= pure) = _
      rw [bind_pure, Reading.step_value]
      rfl
  | assign o v =>
      show (Reading.step c g.reading (o.assign v) >>= pure) = _
      rw [bind_pure, Reading.step_assign rfl rfl]
      rfl

-- ============================================= what makes a difference

/-- A value that can be written in every way. -/
structure Ordinary (v : String) : Prop where
  ne_empty : v ≠ ""
  no_dash : v.toList.head? ≠ some '-'
  no_sign : v.toList.head? ≠ some '='

/-- Such a value is taken as it is, whatever the way. -/
theorem take_of_ordinary {v : String} (hv : Ordinary v) (o : Valued)
    (way : Way) :
    g.take o v way
      = g.setValue o v >>= fun g => pure g.reading := by
  have hplain : looksLikeOption v = false := by
    unfold looksLikeOption
    split
    · rename_i heq
      exact absurd (congrArg List.head? heq) hv.no_dash
    · rfl
  have hwhole : attached v.toList = some v := by
    unfold attached
    split
    · rename_i heq
      exact absurd (String.toList_eq_nil_iff.1 heq) hv.ne_empty
    · rename_i heq
      exact absurd (congrArg List.head? heq) hv.no_sign
    · rw [String.ofList_toList]
  -- an ordinary value is read as it is, in each of the three places
  cases way with
  | apart =>
      unfold Given.take
      rw [hplain]
      rfl
  | joined =>
      unfold Given.take
      rw [hwhole]
      rfl
  | equals => rfl

end Mnemonic.CommandLine
