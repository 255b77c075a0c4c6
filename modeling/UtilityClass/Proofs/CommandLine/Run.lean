import UtilityClass.Proofs.CommandLine.Additions
import UtilityClass.Proofs.CommandLine.Output
import UtilityClass.Proofs.Report.Findings

/-!
# What switches change

How far a job gets is settled before any switch on what is printed or how the run ends is looked
at: the run breaks off, it stops at an error, or its tokens are parsed and the report follows.  So
additions to a command line change only what they are for, and every run that comes to the report
says the same about the same tokens.

The output has a part in that where it lacks a character of the report: then the run breaks off in
printing.  It is the report for a reader that an output may not take; the JSON report is taken by
every output.

## Key results

- `run_eq_ending`: a run is the ending of the course of its job
- `reports_conclude`: what the outcome of a reported job says
- `conclude_of_not_carries`: how a run ends whose report cannot be printed
- `run_additions`: one command line with all its additions
-/

namespace UtilityClass

/-- What the error stream shows: what was written to it, and whether a traceback follows. -/
def Outcome.errors (o : Outcome) : Text × Bool := (o.stderr, o.traceback)

/-- An outcome that reports findings on a job; `before` is what was written to the error stream
before the report. -/
structure Outcome.Reports (o : Outcome) (f : Findings) (j : Job) (before : Text) : Prop where
  json : j.json = true →
    ∃ document : Json, o.stdout = document.render 0 ++ ['\n'] ∧
      Findings.ofDocument? document = some f
  text : j.json = false →
    ∃ lines, o.stdout = ['\n'].intercalate lines ++ ['\n'] ∧ f.Fills lines ∧
      ∀ f' : Findings, f'.Fills lines → f'.tokens = f.tokens
  exit : o.exit = if j.failOnReject ∧ 0 < f.rejected then 1 else 0
  traceback : o.traceback = false
  stderr : o.stderr = before ++
    if j.failOnReject ∧ 0 < f.rejected then Program.rejectionList f.rejectedTokens else []

namespace Program

/-! ## Courses -/

/-- How far a job gets before anything is said about its tokens. -/
inductive Course where
  /-- The run breaks off. -/
  | broken (e : Fault)
  /-- The run stops at an error that is put into words. -/
  | stopped (message : Text)
  /-- The tokens are parsed, and the report follows. -/
  | reported (lead : Text) (notes : List Note) (results : Cache)
  deriving DecidableEq

/-- The line that names the environment file. -/
def leadOf (source : Option Text) : Text :=
  match source with
  | some path => printed [programName ++ ": loaded ".toList ++ path]
  | none => []

/-- How far the parsing of tokens gets. -/
def courseOfTokens (config : Config) (lead : Text) (tokens : List Text) : Course :=
  let traced := (Parser.parseMany ⟨config, .standard⟩ .empty tokens).1
  match traced.answer with
  | .error e => .broken (.value e)
  | .ok results => .reported lead traced.notes results

/-- How far a job gets once the environment is loaded. -/
def courseIn (w : World) (lead : Text) (j : Job) : Course :=
  match Config.ofSettings (Settings.resolve w.environment j.given) with
  | .error e => .stopped (lead ++ printed ["Error: ".toList ++ e.message])
  | .ok config =>
    match j.command.tokens w j.operands with
    | .ok tokens => courseOfTokens config lead tokens
    | .error (.fileNotFound path) =>
      .stopped (lead ++ printed [((CommandError.fileNotFound path).message?).getD []])
    | .error e => .broken (.command e)

/-- How far a job gets.  Its switches play no part in that. -/
def course (w : World) (envFile : Option Text) (j : Job) : Course :=
  let loaded := Environment.load w.environment w.tree w.here envFile
  match loaded.fault with
  | some e => .broken (.environment e)
  | none => courseIn { w with environment := loaded.environment } (leadOf loaded.source) j

/-- Additions change nothing in how far a job gets. -/
theorem course_additions (w : World) (envFile : Option Text) (j : Job) (a : Additions) :
    course w envFile (a.job j) = course w envFile j := rfl

/-- Whether rejections matter is settled by the job and by one of the switches that are added. -/
theorem failOnReject_additions (j : Job) {a b : Additions}
    (h : a.has .failOnReject = b.has .failOnReject) :
    (a.job j).failOnReject = (b.job j).failOnReject :=
  congrArg (j.failOnReject || ·) h

/-- A course that comes to a report went through the parsing of tokens. -/
theorem exists_of_course_eq_reported {w : World} {envFile : Option Text} {j : Job} {lead : Text}
    {notes : List Note} {results : Cache} (h : course w envFile j = .reported lead notes results) :
    ∃ config tokens,
      (Parser.parseMany ⟨config, .standard⟩ .empty tokens).1.answer = .ok results := by
  -- stage by stage, where every stage but the last one ends the course in another way
  unfold course at h
  dsimp only at h
  split at h
  · cases h
  · unfold courseIn at h
    split at h
    · cases h
    · next config hconfig =>
      split at h
      · next tokens htokens =>
        unfold courseOfTokens at h
        dsimp only at h
        split at h
        · cases h
        · next results' hanswer =>
          cases h
          exact ⟨config, tokens, hanswer⟩
      · cases h
      · cases h

/-- One line is printed as its text and a line feed. -/
theorem printed_singleton (t : Text) : printed [t] = t ++ ['\n'] := by simp [printed]

/-- Something is on the list of rejections exactly if the count of them says so. -/
theorem rejectedTokens_ne_nil_iff (results : Cache) :
    rejectedTokens results ≠ [] ↔ 0 < (Findings.ofResults results).rejected := by
  rw [← Findings.length_rejectedTokens, List.length_pos_iff, Findings.rejectedTokens_ofResults]
  rfl

section

variable [ColorReader] (out : Output)

/-- How a run ends, given how far the job gets. -/
def Course.ending (j : Job) (verbose : Bool) : Course → Except Fault Outcome
  | .broken e => .error e
  | .stopped message => .ok ⟨1, [], message, false⟩
  | .reported lead notes results => .ok (conclude out j (lead ++ logOf verbose notes) results)

/-- What is done with tokens is the ending of how far their parsing gets. -/
theorem work_eq_ending (j : Job) (verbose : Bool) (lead : Text) (config : Config)
    (tokens : List Text) :
    work out j verbose lead config tokens =
      (courseOfTokens config lead tokens).ending out j verbose := by
  -- both match on the answer of the parser, of which only the results go on to a report
  unfold work courseOfTokens
  dsimp only
  cases (Parser.parseMany ⟨config, .standard⟩ .empty tokens).1.answer with
  | error e => rfl
  | ok results => rfl

/-- Doing a job is the ending of how far it gets. -/
theorem perform_eq_ending (w : World) (j : Job) (verbose : Bool) (lead : Text) :
    perform out w j verbose lead = (courseIn w lead j).ending out j verbose := by
  unfold perform courseIn
  cases Config.ofSettings (Settings.resolve w.environment j.given) with
  | error e => rfl
  | ok config =>
    dsimp only
    cases j.command.tokens w j.operands with
    | ok tokens => exact work_eq_ending out j verbose lead config tokens
    -- of the errors over tokens only a missing file is put into words
    | error e => cases e <;> rfl

/-- A run is the ending of the course of its job. -/
theorem run_eq_ending (w : World) {arguments : List Text} {envFile : Option Text}
    {verbose : Bool} {j : Job}
    (h : Request.ofArguments arguments = .ok ⟨envFile, verbose, .job j⟩) :
    run w arguments out = (course w envFile j).ending out j verbose := by
  unfold run course
  rw [h]
  dsimp only
  -- a fault of the environment comes before anything that the job asks for
  cases (Environment.load w.environment w.tree w.here envFile).fault with
  | some e => rfl
  | none => exact perform_eq_ending out _ j verbose _

/-! ## Outcomes -/

/-- A report that the output takes is printed, and then the rejected tokens are looked at. -/
theorem conclude_of_carries {j : Job} {results : Cache}
    (h : out.carries (reportOf j results) = true) (before : Text) :
    conclude out j before results =
      if j.failOnReject ∧ rejectedTokens results ≠ [] then
        ⟨1, printed [reportOf j results], before ++ rejectionList (rejectedTokens results), false⟩
      else ⟨0, printed [reportOf j results], before, false⟩ := by
  rw [conclude, print, out.carries_printed, if_pos h]

/-- A report that the output does not take breaks the run off: nothing is printed, and no token is
    listed as rejected. -/
theorem conclude_of_not_carries {j : Job} {results : Cache}
    (h : ¬ out.carries (reportOf j results) = true) (before : Text) :
    conclude out j before results = ⟨1, [], before, true⟩ := by
  rw [conclude, print, out.carries_printed, if_neg h]

/-- What is printed depends on the report alone, not on whether rejections are listed. -/
theorem stdout_conclude (j : Job) (before : Text) (results : Cache) :
    (conclude out j before results).stdout =
      if out.carries (reportOf j results) = true then printed [reportOf j results] else [] := by
  by_cases h : out.carries (reportOf j results) = true
  · rw [conclude_of_carries out h, if_pos h]
    split <;> rfl
  · rw [conclude_of_not_carries out h, if_neg h]

/-- The exit status depends on the rejected tokens and on whether they matter, not on the form of a
    report that can be printed. -/
theorem exit_conclude (j : Job) (before : Text) (results : Cache) :
    (conclude out j before results).exit =
      if out.carries (reportOf j results) = true then
        if j.failOnReject ∧ 0 < (Findings.ofResults results).rejected then 1 else 0
      else 1 := by
  -- a report that is lost ends in one, whatever the rejections
  by_cases h : out.carries (reportOf j results) = true
  · rw [conclude_of_carries out h, if_pos h]
    simp only [rejectedTokens_ne_nil_iff]
    split <;> rfl
  · rw [conclude_of_not_carries out h, if_neg h]

/-- So does what is written to the error stream. -/
theorem errors_conclude (j : Job) (before : Text) (results : Cache) :
    (conclude out j before results).errors =
      if out.carries (reportOf j results) = true then
        (before ++ if j.failOnReject ∧ 0 < (Findings.ofResults results).rejected then
            rejectionList (Findings.ofResults results).rejectedTokens
          else [], false)
      else (before, true) := by
  by_cases h : out.carries (reportOf j results) = true
  · rw [conclude_of_carries out h, if_pos h, Findings.rejectedTokens_ofResults]
    simp only [rejectedTokens_ne_nil_iff]
    split
    · rfl
    · rw [List.append_nil]
      rfl
  · rw [conclude_of_not_carries out h, if_neg h]
    rfl

/-- Behind a report that can be printed the rejected tokens are listed if they matter, and nothing
    else follows. -/
theorem errors_conclude_of_carries {j : Job} {results : Cache}
    (h : out.carries (reportOf j results) = true) (before : Text) :
    (conclude out j before results).errors =
      (before ++ if j.failOnReject ∧ 0 < (Findings.ofResults results).rejected then
          rejectionList (Findings.ofResults results).rejectedTokens
        else [], false) :=
  (errors_conclude out j before results).trans (if_pos h)

/-- The outcome of a reported job says what is found in its results, as its switches ask, if the
    output takes the report. -/
theorem reports_conclude {j : Job} (before : Text) {results : Cache}
    (hraw : ∀ raw c, (raw, some c) ∈ results.entries → c.raw = raw)
    (htakes : out.carries (reportOf j results) = true) :
    (conclude out j before results).Reports (Findings.ofResults results) j before where
  json hjson := by
    refine ⟨Report.document j.emptyPrefix results, ?_, ?_⟩
    · rw [stdout_conclude, if_pos htakes, printed_singleton, reportOf, if_pos hjson]
      rfl
    · apply Findings.ofDocument?_document
      rintro ⟨raw, answer⟩ hmem c rfl
      exact hraw raw c hmem
  text hjson := by
    obtain ⟨lines, hfills, htext⟩ := Findings.exists_fills_text results
    refine ⟨lines, ?_, hfills, fun f' hf' => hf'.tokens_unique hfills⟩
    rw [stdout_conclude, if_pos htakes, printed_singleton, reportOf, if_neg (by simp [hjson]),
      htext]
  exit := by rw [exit_conclude, if_pos htakes]
  traceback := congrArg Prod.snd (errors_conclude_of_carries out htakes before)
  stderr := congrArg Prod.fst (errors_conclude_of_carries out htakes before)

/-- Every output takes the JSON report, and the other one is the report for a reader. -/
theorem carries_reportOf_iff (j : Job) (results : Cache) :
    out.carries (reportOf j results) = true ↔
      j.json = true ∨ out.carries (Report.text results) = true := by
  unfold reportOf
  by_cases hjson : j.json = true
  · rw [if_pos hjson]
    exact iff_of_true (out.carries_json _ _) (.inl hjson)
  · rw [if_neg hjson]
    exact (or_iff_right hjson).symm

/-- Whatever form is asked for, a report that the job comes to can be printed: the output takes the
report for a reader. -/
def Course.Printable (c : Course) : Prop :=
  match c with
  | .broken _ | .stopped _ => True
  | .reported _ _ results => out.carries (Report.text results) = true

/-- Where the output takes every text, no report is lost. -/
theorem printable_unicode (c : Course) : c.Printable .unicode := by
  cases c with
  | broken e => trivial
  | stopped message => trivial
  | reported lead notes results => exact Output.carries_unicode _

/-- What a run ends in, given how far the job gets: no switch undoes a break or a stop, and behind
parsing the outcome reports what is found.  Only a report for a reader that the output does not take
breaks the run off; then nothing is printed. -/
def Course.Ends (c : Course) (j : Job) (verbose : Bool) (ending : Except Fault Outcome) : Prop :=
  match c with
  | .broken e => ending = .error e
  | .stopped message => ending = .ok ⟨1, [], message, false⟩
  | .reported lead notes results =>
    ∃ o, ending = .ok o ∧
      (j.json = true ∨ out.carries (Report.text results) = true →
        o.Reports (Findings.ofResults results) j (lead ++ logOf verbose notes)) ∧
      (¬ (j.json = true ∨ out.carries (Report.text results) = true) →
        o = ⟨1, [], lead ++ logOf verbose notes, true⟩)

/-- The ending of a course is what a run ends in. -/
theorem ends_ending (w : World) (envFile : Option Text) (j j' : Job) (verbose : Bool) :
    (course w envFile j).Ends out j' verbose ((course w envFile j).ending out j' verbose) := by
  -- by the course, of which only the last kind has a report that can be lost
  cases hcourse : course w envFile j with
  | broken e => exact rfl
  | stopped message => exact rfl
  | reported lead notes results =>
    obtain ⟨config, tokens, hanswer⟩ := exists_of_course_eq_reported hcourse
    refine ⟨_, rfl, ?_, ?_⟩
    · intro htakes
      exact reports_conclude out _ (fun raw c hmem => Parser.raw_of_parseMany hanswer hmem)
        ((carries_reportOf_iff out j' results).2 htakes)
    · intro hlost
      exact conclude_of_not_carries out (mt (carries_reportOf_iff out j' results).1 hlost) _

/-! ## Additions -/

section

variable (c : Course) (j : Job) {a b : Additions} (verbose : Bool)

/-- The form of the report is the only thing that changes what is printed. -/
theorem stdout_ending (hform : a.has .json = b.has .json) :
    (c.ending out (a.job j) (verbose || a.verbose)).map Outcome.stdout =
      (c.ending out (b.job j) (verbose || b.verbose)).map Outcome.stdout := by
  -- breaks and stops come before the report, and have the same outcome whatever the switches
  cases c with
  | broken e => rfl
  | stopped message => rfl
  | reported lead notes results =>
    simp only [Course.ending, Except.map, stdout_conclude, reportOf, Additions.job, hform]

variable {c}

/-- Additions decide over whether a report is printed by its form, unless either form can be. -/
theorem carries_reportOf_additions {results : Cache}
    (h : a.has .json = b.has .json ∨ out.carries (Report.text results) = true) :
    out.carries (reportOf (a.job j) results) = out.carries (reportOf (b.job j) results) := by
  rw [Bool.eq_iff_iff, carries_reportOf_iff, carries_reportOf_iff]
  -- the same form makes the same report; else both forms are ones that the output takes
  rcases h with hform | htakes
  · simp only [Additions.job, hform]
  · simp only [htakes, or_true]

/-- Whether rejections matter is the only thing that changes the exit status. -/
theorem exit_ending (h : a.has .json = b.has .json ∨ c.Printable out)
    (hfail : a.has .failOnReject = b.has .failOnReject) :
    (c.ending out (a.job j) (verbose || a.verbose)).map Outcome.exit =
      (c.ending out (b.job j) (verbose || b.verbose)).map Outcome.exit := by
  cases c with
  | broken e => rfl
  | stopped message => rfl
  | reported lead notes results =>
    rw [Course.ending, Course.ending, Except.map, Except.map, exit_conclude, exit_conclude,
      carries_reportOf_additions out j h, failOnReject_additions j hfail]

/-- The form of the report changes nothing on the error stream. -/
theorem errors_ending (h : a.has .json = b.has .json ∨ c.Printable out)
    (hverbose : a.verbose = b.verbose) (hfail : a.has .failOnReject = b.has .failOnReject) :
    (c.ending out (a.job j) (verbose || a.verbose)).map Outcome.errors =
      (c.ending out (b.job j) (verbose || b.verbose)).map Outcome.errors := by
  cases c with
  | broken e => rfl
  | stopped message => rfl
  | reported lead notes results =>
    rw [Course.ending, Course.ending, Except.map, Except.map, errors_conclude, errors_conclude,
      carries_reportOf_additions out j h, failOnReject_additions j hfail, hverbose]

end

end

end Program

end UtilityClass
