/-
What the commands say of one sentence fits together.

All arguments that ask for a task on a sentence with a word list leave
the same behind (`leavesWith_iff`), so one can speak of what the task
leaves. Which list a source yields, or how it fails to, is the matter of
`Loading`; a list that cannot be loaded ends every task in the same way
(`outcomeWith_of_load_error`). With a list, `decode` and `check` each
decode the sentence on their own, yet they succeed together and fail
with the same line, as each looks at one payload (`refusal_of_decode`,
`acceptance_of_decode`); and what `expand` says of an expansion is what
`check` says when it is given the expansion in turn
(`valid_iff_exit_runCheckWith`).

The reports are the texts that they are without colour, written out. A
hash function is a parameter; the program takes SHA-256.
-/
import Mnemonic.Proofs.CommandLine.Loading
import Mnemonic.Proofs.CommandLine.Spelling
import Mnemonic.Proofs.Sentence.Agreement

namespace Mnemonic.CommandLine

-- ============================================================= the texts

/-- What a run that fails writes to the second output. -/
def errorLine (message : String) : String := "Error: " ++ message ++ "\n"

/-- What `decode` prints, the label having ten characters. -/
def decodedText (n : Nat) (label hex : String) : String :=
  "\n      Words       " ++ toString n ++ " words\n      " ++ label ++ "  "
    ++ hex ++ "\n\n"

/-- What `check` prints. -/
def checkedText (n : Nat) (status : String) : String :=
  "\n      Words   " ++ toString n ++ " words\n      Status  " ++ status
    ++ "\n\n"

/-- What `expand` prints. -/
def expandedText (sentence expansion status : String) : String :=
  "\n      Input     " ++ sentence ++ "\n      Expanded  " ++ expansion
    ++ "\n      Checksum  " ++ status ++ "\n\n"

def status (valid : Bool) : String := if valid then "valid" else "invalid"

/-- The characters of a block, with its lines one behind the other. -/
theorem toList_block (lines : List String) :
    (Report.block lines).toList
      = '\n' :: (lines.flatMap String.toList ++ ['\n']) := by
  unfold Report.block
  rw [String.toList_append, String.toList_append, String.toList_join]
  rfl

/-- The characters of a line, none of them added by a style. -/
theorem toList_line (label gap value : String) :
    (Report.line false label gap value).toList
      = "      ".toList
        ++ (label.toList ++ (gap.toList ++ (value.toList ++ ['\n']))) := by
  unfold Report.line Style.paint
  simp only [String.toList_append, List.append_assoc]
  rfl

/-- Without colour, the report on a sentence that decodes is the text
written out. -/
theorem decoded_plain (n : Nat) (hex : String) (withChecksum : Bool) :
    Report.decoded false n hex withChecksum
      = decodedText n
          (if withChecksum then "Entropy+CS" else "Entropy   ") hex := by
  apply String.toList_inj.1
  unfold Report.decoded decodedText Report.wordCount
  simp only [toList_block, toList_line, List.flatMap_cons,
    List.flatMap_nil, String.toList_append, List.append_assoc]
  rfl

/-- Without colour, the report of a check is the text written out. -/
theorem checked_plain (n : Nat) (valid : Bool) :
    Report.checked false n valid = checkedText n (status valid) := by
  apply String.toList_inj.1
  unfold Report.checked checkedText Report.wordCount
  simp only [toList_block, toList_line, List.flatMap_cons,
    List.flatMap_nil, String.toList_append, List.append_assoc]
  rfl

/-- Without colour, the report on an expansion is the text written
out. -/
theorem expanded_plain (sentence expansion : String) (valid : Bool) :
    Report.expanded false sentence expansion valid
      = expandedText sentence expansion (status valid) := by
  apply String.toList_inj.1
  unfold Report.expanded expandedText
  simp only [toList_block, toList_line, List.flatMap_cons,
    List.flatMap_nil, String.toList_append, List.append_assoc]
  rfl

-- ================================================== what a task leaves

variable {H : Hash} {env : Environment} {choice : Choice} {t : Task}
  {s : String} {o : Outcome} {l : WordList} {f : Failure} {e : Error}
  {entropy : List UInt8}

/-- A task leaves an outcome when some arguments ask for it and all that
do are answered with this outcome. -/
structure Environment.LeavesWith (H : Hash) (env : Environment)
    (t : Task) (s : String) (choice : Choice) (o : Outcome) : Prop where
  asked : env.runWith H (spelling t s choice) = .ok o
  always : ∀ arguments verbose,
    request arguments = .ok (.perform ⟨t, s, choice.source, verbose⟩) →
    env.runWith H arguments = .ok o

/-- What becomes of a task. -/
def Environment.outcomeWith (H : Hash) (env : Environment) (t : Task)
    (s : String) (choice : Choice) : Outcome :=
  env.answerWith H (.perform ⟨t, s, choice.source, false⟩)

/-- What becomes of a task with SHA-256. -/
def Environment.outcome (env : Environment) (t : Task) (s : String)
    (choice : Choice) : Outcome :=
  env.answer (.perform ⟨t, s, choice.source, false⟩)

/-- How a task is asked for, and whether a log is, makes no
difference. -/
theorem leavesWith_iff :
    env.LeavesWith H t s choice o
      ↔ env.outcomeWith H t s choice = o := by
  have hrun : ∀ arguments verbose,
      request arguments = .ok (.perform ⟨t, s, choice.source, verbose⟩) →
      env.runWith H arguments = .ok (env.outcomeWith H t s choice) := by
    intro arguments verbose h
    unfold Environment.runWith
    rw [h]
    rfl
  have hasked := hrun _ _ (request_spelling t s choice)
  refine ⟨fun h => ?_, fun h => ?_⟩
  · have hok := h.asked
    rw [hasked] at hok
    exact Except.ok.inj hok
  · subst h
    exact ⟨hasked, hrun⟩

/-- A list that cannot be loaded ends every task with the same line,
whatever the sentence. -/
theorem outcomeWith_of_load_error
    (h : env.load choice.source = .error f) :
    env.outcomeWith H t s choice = ⟨1, "", errorLine f.message⟩ := by
  unfold Environment.outcomeWith Environment.answerWith
  simp only [h]
  rfl

/-- With a list a task depends on the list and the sentence only. -/
theorem outcomeWith_of_load (h : env.load choice.source = .ok l) :
    env.outcomeWith H t s choice = runTaskWith H env.colour l s t := by
  unfold Environment.outcomeWith Environment.answerWith
  simp only [h]

-- ===================================================== with a word list

/-- What `decode`, `decode` with the checksum and `check` leave of a
sentence that is refused: one line, and of `check` also the number of
tokens, which is the number that the line names if it names one. -/
structure Refusal (s : String) (e : Error) (d dc c : Outcome) :
    Prop where
  decode : d = ⟨1, "", errorLine e.message⟩
  decodeChecksum : dc = ⟨1, "", errorLine e.message⟩
  check : c =
    ⟨1, checkedText (tokenCount s) "invalid", errorLine e.message⟩
  count : ∀ k, e = .wordCount k → k = tokenCount s

/-- What they leave of a sentence that decodes: the number of tokens,
and the entropy in hexadecimal or the same with two more digits for the
checksum, or that it is valid. -/
structure Acceptance (H : Hash) (s : String) (entropy : List UInt8)
    (d dc c : Outcome) : Prop where
  supported : Sentence.Supported (tokenCount s)
  decode : d =
    ⟨0, decodedText (tokenCount s) "Entropy   " (Text.Hex.text entropy), ""⟩
  digits : (Text.Hex.text entropy).length = 8 * tokenCount s / 3
  readsBack : Text.Hex.bytes? (Text.Hex.text entropy) = some entropy
  decodeChecksum : ∃ (w : WordCount) (digits : String),
    w.words = tokenCount s ∧ digits.length = 2
      ∧ Text.Hex.bytes? digits
        = some [Checksum.compute H entropy w]
      ∧ dc = ⟨0, decodedText (tokenCount s) "Entropy+CS"
          (Text.Hex.text entropy ++ digits), ""⟩
  check : c = ⟨0, checkedText (tokenCount s) "valid", ""⟩

/-- A sentence that is refused is refused in both decodings for one
cause. -/
theorem decodeBytes_of_refused
    (h : Sentence.decodeWith H l s = .error e) :
    Sentence.decodeBytesWith H l s = .error e := by
  rw [Sentence.decodeWith_eq_map, Error.map_eq_error_iff] at h
  rw [Sentence.decodeBytesWith_eq_map, Error.map_eq_error_iff]
  exact h

/-- What the commands leave of a sentence that is refused. -/
theorem refusal_of_decode (h : Sentence.decodeWith H l s = .error e) :
    Refusal s e (runDecodeWith H false l s false)
      (runDecodeWith H false l s true) (runCheckWith H false l s) where
  decode := by
    unfold runDecodeWith
    simp only [h]
    rfl
  decodeChecksum := by
    unfold runDecodeWith
    simp only [decodeBytes_of_refused h]
    rfl
  check := by
    unfold runCheckWith
    simp only [h, checked_plain]
    rfl
  count := by
    intro k hk
    subst hk
    have hout := Sentence.decodeWith_eq_error_iff.1 h
    exact (Sentence.outcome_wordCount_iff.1 hout).2

/-- What the commands leave of a sentence that decodes: all they print is
read off one payload, the entropy sealed with its checksum. -/
theorem acceptance_of_decode
    (h : Sentence.decodeWith H l s = .ok entropy) :
    Acceptance H s entropy (runDecodeWith H false l s false)
      (runDecodeWith H false l s true) (runCheckWith H false l s) := by
  obtain ⟨w, hw, -, hpay, hsealed⟩ :=
    Sentence.exists_sealed_of_decodeWith h
  have hbytes : Sentence.decodeBytesWith H l s
      = .ok (entropy ++ [Checksum.compute H entropy w]) := by
    rw [Sentence.decodeBytesWith_eq_map, hpay]
    rfl
  -- the entropy is as long as the sentence asks for, so its digits are too
  have hsize : entropy.length = 4 * tokenCount s / 3 := by
    have hfits := Payload.fits_held
      (Sentence.packed l (Text.tokens s)) w
    rw [hsealed] at hfits
    unfold tokenCount
    rw [← hw, ← w.entropyBytes_eq]
    exact hfits.entropy
  have hk : Sentence.Supported (tokenCount s) :=
    Sentence.supported_iff.2 ⟨w, hw⟩
  refine
    { supported := hk
      decode := ?_
      digits := ?_
      readsBack := Text.Hex.bytes?_text entropy
      decodeChecksum :=
        ⟨w, Text.Hex.text [Checksum.compute H entropy w], hw,
          Text.Hex.length_text _, Text.Hex.bytes?_text _, ?_⟩
      check := ?_ }
  · unfold runDecodeWith
    simp only [h, decoded_plain]
    rfl
  · rw [Text.Hex.length_text, hsize]
    unfold Sentence.Supported at hk
    omega
  · rw [← Text.Hex.text_append]
    unfold runDecodeWith
    simp only [hbytes, decoded_plain]
    rfl
  · unfold runCheckWith
    simp only [h, checked_plain]
    rfl

/-- A refusal exits with 1, whichever command reports it. -/
theorem Refusal.exit {d dc c : Outcome} (h : Refusal s e d dc c) :
    ∀ o ∈ [d, dc, c], o.exit = 1 := by
  simp [h.decode, h.decodeChecksum, h.check]

/-- An acceptance exits with 0, whichever command reports it. -/
theorem Acceptance.exit {d dc c : Outcome}
    (h : Acceptance H s entropy d dc c) : ∀ o ∈ [d, dc, c], o.exit = 0 := by
  obtain ⟨w, digits, -, -, -, hdc⟩ := h.decodeChecksum
  simp [h.decode, hdc, h.check]

/-- `decode`, with the checksum and without, and `check` succeed on the
sentences that decode. -/
theorem exit_eq_zero_iff
    (ho : o ∈ [runDecodeWith H false l s false,
      runDecodeWith H false l s true, runCheckWith H false l s]) :
    o.exit = 0 ↔ ∃ entropy, Sentence.decodeWith H l s = .ok entropy := by
  cases h : Sentence.decodeWith H l s with
  | error e =>
      rw [(refusal_of_decode h).exit o ho]
      simp
  | ok entropy =>
      rw [(acceptance_of_decode h).exit o ho]
      simp

/-- A sentence that does not expand leaves one line. -/
theorem runExpandWith_of_error (h : Sentence.expand l s = .error e) :
    runExpandWith H false l s = ⟨1, "", errorLine e.message⟩ := by
  unfold runExpandWith
  simp only [h]
  rfl

/-- A sentence that expands is shown with its expansion, and with
whether that decodes; it is no failure if it does not. -/
theorem runExpandWith_of_ok {x : String}
    (h : Sentence.expand l s = .ok x) :
    runExpandWith H false l s
      = ⟨0, expandedText s x (status (Sentence.validWith H l x)), ""⟩ := by
  unfold runExpandWith
  simp only [h, expanded_plain]
  rfl

/-- What `expand` calls valid is what `check` accepts. -/
theorem valid_iff_exit_runCheckWith :
    Sentence.validWith H l s = true
      ↔ (runCheckWith H false l s).exit = 0 := by
  have hcheck : (runCheckWith H false l s).exit = 0
      ↔ ∃ entropy, Sentence.decodeWith H l s = .ok entropy :=
    exit_eq_zero_iff (by simp)
  rw [hcheck, Sentence.validWith_eq_true_iff, Sentence.decodeWith_eq_map,
    Error.exists_map_eq_ok_iff]

/-- `expand` succeeds on the sentences that expand. -/
theorem exit_runExpandWith_eq_zero_iff :
    (runExpandWith H false l s).exit = 0
      ↔ ∃ x, Sentence.expand l s = .ok x := by
  cases h : Sentence.expand l s with
  | error e =>
      rw [runExpandWith_of_error h]
      simp
  | ok x =>
      rw [runExpandWith_of_ok h]
      simp

-- ================================================================ the story

/-- For one sentence and one choice of a word list, `decode`, with the
checksum and without, `check` and `expand` leave outcomes that fit
together, however they are asked for. What the choice yields is loaded
first. If there is no list the four are the same, whatever the sentence.
Else the first three succeed if the sentence decodes and show it, or
fail as it is refused; and the last succeeds if the sentence expands,
and calls the expansion valid just if `check` accepts it. The program is
the case of SHA-256. -/
theorem commands_agree (H : Hash) (env : Environment)
    (hplain : env.colour = false) (choice : Choice) (s : String) :
    ∃ d dc c x : Outcome,
      env.LeavesWith H (.decode false) s choice d
        ∧ env.LeavesWith H (.decode true) s choice dc
        ∧ env.LeavesWith H .check s choice c
        ∧ env.LeavesWith H .expand s choice x
        ∧ env.Loading choice.source (env.load choice.source)
        ∧ (∀ f, env.load choice.source = .error f →
            ∀ o ∈ [d, dc, c, x], o = ⟨1, "", errorLine f.message⟩)
        ∧ ∀ l, env.load choice.source = .ok l →
            (∀ o ∈ [d, dc, c],
              o.exit = 0
                ↔ ∃ entropy, Sentence.decodeWith H l s = .ok entropy)
            ∧ (∀ e, Sentence.decodeWith H l s = .error e →
                Refusal s e d dc c)
            ∧ (∀ entropy, Sentence.decodeWith H l s = .ok entropy →
                Acceptance H s entropy d dc c)
            ∧ (x.exit = 0 ↔ ∃ t, Sentence.expand l s = .ok t)
            ∧ (∀ e, Sentence.expand l s = .error e →
                x = ⟨1, "", errorLine e.message⟩)
            ∧ ∀ t, Sentence.expand l s = .ok t →
                ∃ (checked : Outcome) (valid : Bool),
                  env.LeavesWith H .check t choice checked
                    ∧ x = ⟨0, expandedText s t (status valid), ""⟩
                    ∧ (valid = true ↔ checked.exit = 0) := by
  refine ⟨_, _, _, _, leavesWith_iff.2 rfl, leavesWith_iff.2 rfl,
    leavesWith_iff.2 rfl, leavesWith_iff.2 rfl,
    loading_load env choice.source, fun f hf => ?_, fun l hl => ?_⟩
  · intro o ho
    simp only [outcomeWith_of_load_error hf] at ho
    simpa using ho
  · simp only [outcomeWith_of_load hl, hplain]
    refine ⟨fun o ho => exit_eq_zero_iff ho,
      fun e he => refusal_of_decode he,
      fun entropy he => acceptance_of_decode he,
      exit_runExpandWith_eq_zero_iff,
      fun e he => runExpandWith_of_error he, fun t ht => ?_⟩
    -- the verdict on the expansion is that of checking it on its own
    refine ⟨env.outcomeWith H .check t choice, Sentence.validWith H l t,
      leavesWith_iff.2 rfl, runExpandWith_of_ok ht, ?_⟩
    rw [outcomeWith_of_load hl, hplain]
    exact valid_iff_exit_runCheckWith

/-- No file can be read, and every language has the same words. -/
def bareEnvironment : Environment where
  read := fun _ => .error .absent
  vocabulary := fun _ => Sentence.awkwardList
  colour := false

/-- A sentence that decodes, one that has too few words, and a list that
is not there. -/
theorem commands_agree_bare :
    bareEnvironment.run ["decode", "--mnemonic=a a a a a a a a a a a d"]
        = .ok ⟨0, "\n      Words       12 words\n"
            ++ "      Entropy     00000000000000000000000000000000\n\n", ""⟩
      ∧ bareEnvironment.run ["check", "--mnemonic=a"]
        = .ok ⟨1, "\n      Words   1 words\n      Status  invalid\n\n",
            "Error: invalid mnemonic: 1 words, "
              ++ "must be 12, 15, 18, 21, or 24\n"⟩
      ∧ bareEnvironment.run ["expand", "--mnemonic=a", "--wordlist=words"]
        = .ok ⟨1, "",
            "Error: No such file or directory (os error 2)\n"⟩ := by
  refine ⟨?_, ?_, ?_⟩
  · obtain ⟨d, dc, c, x, hd, -, -, -, -, -, hloaded⟩ := commands_agree
      sha256 bareEnvironment rfl .default "a a a a a a a a a a a d"
    obtain ⟨-, -, haccepted, -⟩ := hloaded _ rfl
    have ha := haccepted _ Sentence.decodeWith_zeros
    have hcount : tokenCount "a a a a a a a a a a a d" = 12 := by
      decide +kernel
    have hrun := hd.asked
    rw [ha.decode, hcount] at hrun
    exact hrun.trans (by decide +kernel)
  · obtain ⟨d, dc, c, x, -, -, hc, -, -, -, hloaded⟩ := commands_agree
      sha256 bareEnvironment rfl .default "a"
    obtain ⟨-, hrefused, -⟩ := hloaded _ rfl
    have htokens : Text.tokens "a" = ["a"] := by
      decide +kernel
    have hshort : Sentence.decode Sentence.awkwardList "a"
        = .error (.wordCount 1) := by
      apply Sentence.decodeWith_eq_error_iff.2
      rw [htokens]
      exact .unsupported (by unfold Sentence.Supported; decide)
    have hcount : tokenCount "a" = 1 := by
      decide +kernel
    have hrun := hc.asked
    rw [(hrefused _ hshort).check, hcount] at hrun
    exact hrun.trans (by decide +kernel)
  · obtain ⟨d, dc, c, x, -, -, -, hx, -, hunloaded, -⟩ := commands_agree
      sha256 bareEnvironment rfl (.file "words" (by decide)) "a"
    have hmissing := hunloaded (.file .absent) rfl x (by simp)
    have hrun := hx.asked
    rw [hmissing] at hrun
    exact hrun.trans (by decide +kernel)

end Mnemonic.CommandLine
