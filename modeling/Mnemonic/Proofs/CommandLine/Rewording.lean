/-
What a command does depends on the values of its options only.

A line is a command with some pieces behind it and perhaps the flag for a
log in front of it. If the values are ordinary, reading the pieces comes
to setting what they give, one item after the other
(`readOptions_of_fits`), and when each option is given once the order of
setting leaves no trace.

If the pieces give both a file and a language, or no sentence, there is
no need to know what the values are, or whether they can be read at all.
Either a fault ends the reading, or the options with a value are those
that a piece gives one to (`faultOr_readOptions`), and this is refused in
the end.
-/
import Mnemonic.Proofs.CommandLine.Consistency
import Mnemonic.Proofs.CommandLine.Pieces

namespace Mnemonic.CommandLine

variable {c : Command} {g : Given} {is : List Item}

-- ========================================= pieces with ordinary values

/-- A command has the option of an item, and the value may be written in
every way. -/
def Item.Fits (c : Command) : Item → Prop
  | .value _ v => Ordinary v
  | .flag f => Opt.allowed (some c) (.flag f.flag) = true

/-- A switch that the command has is given like any other setting,
however it was written. -/
theorem switch_of_fits {f : Switch} (h : (Item.flag f).Fits c)
    (argument : String) :
    g.switch c argument f = g.give (.flag f) :=
  if_pos h

/-- Joined switches that the command has are given one after the
other. -/
theorem foldlM_switch {fs : List Switch}
    (h : ∀ i ∈ fs.map Item.flag, i.Fits c) (argument : String) :
    fs.foldlM (Given.switch c argument) g
      = (fs.map Item.flag).foldlM Given.give g := by
  induction fs generalizing g with
  | nil => rfl
  | cons f fs ih =>
      rw [List.map_cons, List.forall_mem_cons] at h
      rw [List.map_cons, List.foldlM_cons, List.foldlM_cons,
        switch_of_fits h.1]
      exact bind_congr fun _ => ih h.2

/-- A piece is read by setting what it gives. -/
theorem read_of_fits {p : Piece} (h : ∀ i ∈ p.items, i.Fits c) :
    p.read c g
      = p.items.foldlM Given.give g >>= fun g => pure g.reading := by
  have hvalue : ∀ (g : Given) (o : Valued) (v : String) (way : Way),
      Ordinary v → g.take o v way
        = [Item.value o v].foldlM Given.give g
            >>= fun g => pure g.reading := by
    intro g o v way hv
    rw [take_of_ordinary hv]
    exact congrArg (· >>= _) (bind_pure (g.setValue o v)).symm
  -- a piece is some switches and at most one value, which comes last
  cases p with
  | letters f fs => exact congrArg (· >>= _) (foldlM_switch h _)
  | name f =>
      have hf := switch_of_fits (g := g) (h _ (List.mem_singleton_self _))
        ("--" ++ f.longName)
      show (g.switch c ("--" ++ f.longName) f >>= _) = _
      rw [hf]
      exact congrArg (· >>= _) (bind_pure _).symm
  | short fs o way v =>
      obtain ⟨hfs, hv⟩ := List.forall_mem_append.1 h
      have hv : Ordinary v := hv _ (List.mem_singleton_self _)
      show (List.foldlM _ g fs >>= _) = _
      rw [foldlM_switch hfs]
      unfold Piece.items
      rw [List.foldlM_append, bind_assoc]
      exact bind_congr fun g => hvalue g o v way hv
  | long o v =>
      exact hvalue g o v .apart (h _ (List.mem_singleton_self _))
  | assign o v =>
      exact hvalue g o v .equals (h _ (List.mem_singleton_self _))

/-- Reading the arguments of some pieces is giving their settings in
turn, if the command has them all. -/
theorem foldlM_of_fits {ps : List Piece}
    (h : ∀ i ∈ ps.flatMap Piece.items, i.Fits c) :
    (ps.flatMap Piece.arguments).foldlM (Reading.step c) g.reading
      = (ps.flatMap Piece.items).foldlM Given.give g
          >>= fun g => pure g.reading := by
  induction ps generalizing g with
  | nil => rfl
  | cons p ps ih =>
      rw [List.flatMap_cons] at h
      obtain ⟨hp, hps⟩ := List.forall_mem_append.1 h
      rw [List.flatMap_cons, List.flatMap_cons, List.foldlM_append,
        foldlM_arguments, read_of_fits hp, List.foldlM_append,
        bind_assoc, bind_assoc]
      exact bind_congr fun _ => ih hps

/-- What the arguments of some pieces give depends on their settings
only. -/
theorem readOptions_of_fits {ps : List Piece}
    (h : ∀ i ∈ ps.flatMap Piece.items, i.Fits c) :
    readOptions c (ps.flatMap Piece.arguments)
      = (ps.flatMap Piece.items).foldlM Given.give {} := by
  have hread := foldlM_of_fits (g := {}) h
  unfold readOptions
  show (List.foldlM _ (Given.reading {}) _ >>= _) = _
  rw [hread, bind_assoc]
  exact bind_pure _

-- ============================================== pieces with any values

namespace Given

/-- A switch ends the reading in a fault or is covered from there on. -/
theorem faultOr_switch (h : g.Covers is) (argument : String)
    (f : Switch) :
    FaultOr (Covers · (is ++ [.flag f])) (g.switch c argument f) := by
  unfold Given.switch
  split
  · have hgive := (faultOr_give g (.flag f)).mono fun g' hset =>
      h.snoc hset rfl
    exact hgive
  · exact .fault _

/-- So do joined switches. -/
theorem faultOr_foldlM_switch (h : g.Covers is) (argument : String)
    (fs : List Switch) :
    FaultOr (Covers · (is ++ fs.map .flag))
      (fs.foldlM (Given.switch c argument) g) := by
  induction fs generalizing g is with
  | nil => exact .ok (by simpa using h)
  | cons f fs ih =>
      rw [List.foldlM_cons]
      refine (faultOr_switch h argument f).bind fun g' hg' => ?_
      have hrest := ih hg'
      rwa [List.append_assoc] at hrest

end Given

/-- A reading waits for a value, or has the options of some items. It is
an empty value joined to a letter that makes it wait. -/
inductive Reading.Tracks (is : List Item) : Reading → Prop where
  | waits {r : Reading} {o : Valued} :
      r.pending = some o → r.ended = false → Tracks is r
  | covers {g : Given} : g.Covers is → Tracks is g.reading

namespace Reading

/-- A value that is read as another one is still one of its option. -/
theorem faultOr_setValue (h : g.Covers is) (o : Valued) (v : String)
    (u : Option String) :
    FaultOr (Tracks (is ++ [.value o v])) (g.reading.setValue o u) := by
  cases u with
  | none => exact .ok (.waits rfl rfl)
  | some u =>
      exact (Given.faultOr_give g (.value o u)).bind fun g' hset =>
        .ok (.covers (h.snoc hset rfl))

/-- An option with a value ends the reading in a fault or is tracked
from there on, in whichever way the value comes. -/
theorem faultOr_take (h : g.Covers is) (o : Valued) (v : String)
    (way : Way) :
    FaultOr (Tracks (is ++ [.value o v])) (g.take o v way) := by
  cases way with
  | apart =>
      unfold Given.take
      cases looksLikeOption v with
      | true => exact .fault _
      | false => exact faultOr_setValue h o v (some v)
  | joined => exact faultOr_setValue h o v (attached v.toList)
  | equals => exact faultOr_setValue h o v (some v)

/-- A piece ends the reading in a fault, or all that it sets is
tracked. -/
theorem faultOr_read (h : g.Covers is) (p : Piece) :
    FaultOr (Tracks (is ++ p.items)) (p.read c g) := by
  cases p with
  | letters f fs =>
      exact (Given.faultOr_foldlM_switch h _ (f :: fs)).bind
        fun g hg => .ok (.covers hg)
  | name f =>
      exact (Given.faultOr_switch h _ f).bind fun g hg => .ok (.covers hg)
  | short fs o way v =>
      refine (Given.faultOr_foldlM_switch h _ fs).bind fun g hg => ?_
      have htake := faultOr_take hg o v way
      rwa [List.append_assoc] at htake
  | long o v => exact faultOr_take h o v .apart
  | assign o v => exact faultOr_take h o v .equals

/-- No piece begins with a value, so none ends the waiting for one. -/
theorem faultOr_arguments {r : Reading} (h : r.Tracks is) (p : Piece) :
    FaultOr (Tracks (is ++ p.items))
      (p.arguments.foldlM (step c) r) := by
  cases h with
  | covers hg =>
      rw [foldlM_arguments]
      exact faultOr_read hg p
  | @waits _ o hpending hended =>
      have hstep : step c r p.head = .error (.fault (.missingValue o)) := by
        unfold step
        simp only [hended, hpending, looksLikeOption_head]
        rfl
      unfold Piece.arguments
      rw [List.foldlM_cons, hstep]
      exact .fault _

/-- The arguments of some pieces end the reading in a fault, or all that
the pieces set is tracked; the step is that of one piece. -/
theorem faultOr_foldlM {r : Reading} (h : r.Tracks is)
    (ps : List Piece) :
    FaultOr (Tracks (is ++ ps.flatMap Piece.items))
      ((ps.flatMap Piece.arguments).foldlM (step c) r) := by
  -- The items before the pieces grow, so the reading tracks any of them.
  induction ps generalizing r is with
  | nil => exact .ok (by simpa using h)
  | cons p ps ih =>
      rw [List.flatMap_cons, List.flatMap_cons, List.foldlM_append]
      refine (faultOr_arguments h p).bind fun r' hr' => ?_
      have hrest := ih hr'
      rwa [List.append_assoc] at hrest

end Reading

/-- Whatever pieces give, reading them ends in a fault, or in just the
options that they give. -/
theorem faultOr_readOptions (c : Command) (ps : List Piece) :
    FaultOr (Given.Covers · (ps.flatMap Piece.items))
      (readOptions c (ps.flatMap Piece.arguments)) := by
  have hread := Reading.faultOr_foldlM (c := c)
    (.covers Given.covers_nil) ps
  refine hread.bind fun r hr => ?_
  cases hr with
  | covers hg => exact .ok hg
  | @waits _ o hpending =>
      unfold Reading.finish
      rw [hpending]
      exact .fault _

-- =============================================================== lines

/-- What stands in front of a command: nothing, or the flag for a log. -/
inductive Lead where
  | none | letter | name
deriving DecidableEq, Repr

namespace Lead

def arguments : Lead → List String
  | none => []
  | letter => ["-v"]
  | name => ["--verbose"]

def verbose : Lead → Bool
  | none => false
  | _ => true

end Lead

/-- A command with its options. -/
structure Line where
  lead : Lead
  word : String
  pieces : List Piece
deriving DecidableEq, Repr

namespace Line

/-- The arguments behind the command. -/
def rest (line : Line) : List String :=
  line.pieces.flatMap Piece.arguments

def arguments (line : Line) : List String :=
  line.lead.arguments ++ line.word :: line.rest

/-- What the options behind the command give, in the order of
writing. -/
def items (line : Line) : List Item :=
  line.pieces.flatMap Piece.items

def options (line : Line) : List Opt := line.items.map Item.opt

end Line

variable {line : Line} {t : Task} {s : String} {choice : Choice}

/-- What stands in front of the command only says whether a log is asked
for. -/
theorem request_line (line : Line) :
    request line.arguments
      = requestFrom line.lead.verbose (line.word :: line.rest) := by
  obtain ⟨lead, word, pieces⟩ := line
  cases lead <;> rfl

/-- Once the options behind the command are read, the invocation is made
of them. -/
theorem request_of_given (hword : Command.ofWord? line.word = some c)
    (hread : readOptions c line.rest = .ok g) :
    request line.arguments
      = (g.invocation c line.lead.verbose).map .perform := by
  rw [request_line]
  unfold requestFrom
  simp only [hword, hread]

/-- A fault behind the command is the fault of the whole line. -/
theorem request_of_fault (hword : Command.ofWord? line.word = some c)
    {e : UsageError} (hread : readOptions c line.rest = .error (.fault e)) :
    request line.arguments = .error e := by
  rw [request_line]
  unfold requestFrom
  simp only [hword, hread]
  rfl

-- ====================================================== what is wanted

/-- The value that a choice gives an option can be written in every
way. -/
def Choice.Ordinary : Choice → Prop
  | .file path _ => CommandLine.Ordinary path
  | _ => True

/-- A line asks for a task on a sentence with a choice of a word list: it
gives each of them once, in some order, and perhaps the flag for a
log. -/
structure Line.Gives (line : Line) (t : Task) (s : String)
    (choice : Choice) : Prop where
  command : Command.ofWord? line.word = some t.command
  items : ∃ verbose,
    line.items.Perm (Given.items { choice.given t s with verbose })

/-- The name of a language does not look like an option, so it can stand
as an argument of its own. -/
theorem ordinary_name (l : Language) : Ordinary l.name := by
  cases l <;> exact ⟨by decide, by decide, by decide⟩

/-- What is given for a task is something that the task's command has.
-/
theorem fits_of_has {verbose : Bool} {i : Item} (hs : Ordinary s)
    (hchoice : choice.Ordinary)
    (h : Given.Has { choice.given t s with verbose } i) :
    i.Fits t.command := by
  rcases i with ⟨_ | _ | _, v⟩ | (_ | _)
  · cases h
    exact hs
  · cases choice with
    | file path named =>
        cases h
        exact hchoice
    | default => cases h
    | language l => cases h
  · cases choice with
    | language l =>
        cases h
        exact ordinary_name l
    | default => cases h
    | file path named => cases h
  · rfl
  · -- the checksum is given for the one task that can show it
    have hflags : t.flags ≠ [] := of_decide_eq_true h
    cases t with
    | decode withChecksum => rfl
    | check => exact absurd rfl hflags
    | expand => exact absurd rfl hflags

/-- A task, a sentence and a choice of list are recovered from the
options that were given for them. -/
theorem invocation_given (t : Task) (s : String) (choice : Choice)
    (before behind : Bool) :
    Given.invocation { choice.given t s with verbose := behind } t.command
        before
      = .ok ⟨t, s, choice.source, before || behind⟩ := by
  rcases t with (_ | _) | _ | _ <;> cases choice <;> rfl

/-- A line that gives a task, a sentence and a choice of list asks for
just these, and for a log or not. -/
theorem request_of_gives (hs : Ordinary s) (hchoice : choice.Ordinary)
    (h : line.Gives t s choice) :
    ∃ verbose, request line.arguments
      = .ok (.perform ⟨t, s, choice.source, verbose⟩) := by
  obtain ⟨behind, hperm⟩ := h.items
  have hfits : ∀ i ∈ line.items, i.Fits t.command := fun i hi =>
    fits_of_has hs hchoice (Given.mem_items.1 (hperm.mem_iff.1 hi))
  have hfile : (choice.given t s).file ≠ some "" := by
    cases choice with
    | file path named => exact fun heq => named (Option.some.inj heq)
    | default => nofun
    | language l => nofun
  have hread : readOptions t.command line.rest
      = .ok { choice.given t s with verbose := behind } :=
    (readOptions_of_fits hfits).trans (Given.foldlM_give hfile hperm)
  refine ⟨line.lead.verbose || behind, ?_⟩
  rw [request_of_given h.command hread, invocation_given]
  rfl

-- ===================================================== what is refused

/-- Options that give a file and a language, or no sentence, are refused
in the end. -/
theorem exists_invocation_error (c : Command) (verbose : Bool)
    (hcovers : g.Covers is)
    (h : (.valued .file ∈ is.map Item.opt
        ∧ .valued .language ∈ is.map Item.opt)
      ∨ .valued .sentence ∉ is.map Item.opt) :
    ∃ e, g.invocation c verbose = .error e := by
  simp only [← hcovers.value_ne_none_iff] at h
  unfold Given.invocation
  rcases h with ⟨hfile, hlanguage⟩ | hsentence
  · obtain ⟨path, hpath⟩ := Option.ne_none_iff_exists'.1 hfile
    obtain ⟨name, hname⟩ := Option.ne_none_iff_exists'.1 hlanguage
    obtain ⟨l, hl, -⟩ := Option.map_eq_some_iff.1 hname
    have hsource : g.source = .error .twoSources := by
      unfold Given.source
      rw [show g.file = some path from hpath, hl]
    rw [hsource]
    exact ⟨_, rfl⟩
  · have hnone : g.sentence = none := not_not.1 hsentence
    rw [hnone]
    cases g.source with
    | error e => exact ⟨e, rfl⟩
    | ok source => exact ⟨.noSentence, rfl⟩

/-- A line that names two lists or no sentence is refused, whatever else
is on it. -/
theorem exists_request_error (hword : Command.ofWord? line.word = some c)
    (h : (.valued .file ∈ line.options ∧ .valued .language ∈ line.options)
      ∨ .valued .sentence ∉ line.options) :
    ∃ e, request line.arguments = .error e := by
  have hfault : FaultOr (Given.Covers · line.items)
      (readOptions c line.rest) := faultOr_readOptions c line.pieces
  cases hread : readOptions c line.rest with
  | ok g =>
      rw [hread] at hfault
      obtain ⟨e, he⟩ := exists_invocation_error c line.lead.verbose
        hfault.of_ok h
      refine ⟨e, ?_⟩
      rw [request_of_given hword hread, he]
      rfl
  | error stop =>
      rw [hread] at hfault
      cases hfault with
      | fault e => exact ⟨e, request_of_fault hword hread⟩

-- ========================================================== the result

/-- What a command leaves depends on the values of its options only: all
lines that give the same ones, which must be ordinary, leave the same.
And if a line gives both a file and a language, or no sentence, whatever
its values are, it is refused as such, with nothing looked at beyond the
arguments. -/
theorem wording_immaterial (env : Environment) :
    (∀ (t : Task) (s : String) (choice : Choice) (line : Line),
        Ordinary s → choice.Ordinary → line.Gives t s choice →
        env.run line.arguments = .ok (env.outcome t s choice))
      ∧ ∀ (line : Line) (c : Command),
          Command.ofWord? line.word = some c →
          (.valued .file ∈ line.options
              ∧ .valued .language ∈ line.options)
            ∨ .valued .sentence ∉ line.options →
          ∃ e, request line.arguments = .error e
            ∧ env.run line.arguments = .error e
            ∧ exitCode (env.run line.arguments) = 2 := by
  refine ⟨fun t s choice line hs hchoice h => ?_, fun line c hword h => ?_⟩
  · obtain ⟨verbose, hrequest⟩ := request_of_gives hs hchoice h
    exact (leavesWith_iff.2 rfl).always _ verbose hrequest
  · obtain ⟨e, he⟩ := exists_request_error hword h
    have hrun : env.run line.arguments = .error e := by
      unfold Environment.run Environment.runWith
      rw [he]
      rfl
    refine ⟨e, he, hrun, ?_⟩
    rw [hrun]
    rfl

/-- A sentence that is asked for in two ways, a line with a file and a
language, and one with no sentence. -/
theorem wording_immaterial_bare :
    bareEnvironment.run ["-v", "decode", "-lfrench", "-cm", "a b"]
        = .ok ⟨1, "", "Error: invalid mnemonic: 2 words, "
            ++ "must be 12, 15, 18, 21, or 24\n"⟩
      ∧ bareEnvironment.run
          ["decode", "--mnemonic=a b", "--checksum", "--language", "french"]
        = .ok ⟨1, "", "Error: invalid mnemonic: 2 words, "
            ++ "must be 12, 15, 18, 21, or 24\n"⟩
      ∧ exitCode (bareEnvironment.run
          ["check", "-m", "-", "-w=", "-lgreek"]) = 2
      ∧ exitCode (bareEnvironment.run
          ["--verbose", "validate", "-vw=--"]) = 2 := by
  obtain ⟨hanswered, hrefused⟩ := wording_immaterial bareEnvironment
  have hplain : Ordinary "a b" := ⟨by decide, by decide, by decide⟩
  have houtcome :
      bareEnvironment.outcome (.decode true) "a b" (.language .french)
        = ⟨1, "", "Error: invalid mnemonic: 2 words, "
            ++ "must be 12, 15, 18, 21, or 24\n"⟩ := by
    decide +kernel
  rw [← houtcome]
  refine ⟨?_, ?_, ?_, ?_⟩
  · exact hanswered (.decode true) "a b" (.language .french)
      ⟨.letter, "decode",
        [.short [] .language .joined "french",
          .short [.checksum] .sentence .apart "a b"]⟩
      hplain trivial ⟨rfl, false, by decide⟩
  · exact hanswered (.decode true) "a b" (.language .french)
      ⟨.none, "decode",
        [.assign .sentence "a b", .name .checksum,
          .long .language "french"]⟩
      hplain trivial ⟨rfl, false, by decide⟩
  · obtain ⟨e, -, -, hexit⟩ := hrefused
      ⟨.none, "check",
        [.short [] .sentence .apart "-", .short [] .file .equals "",
          .short [] .language .joined "greek"]⟩
      .check rfl (.inl (by decide))
    exact hexit
  · obtain ⟨e, -, -, hexit⟩ := hrefused
      ⟨.name, "validate", [.short [.verbose] .file .equals "--"]⟩
      .check rfl (.inr (by decide))
    exact hexit

end Mnemonic.CommandLine
