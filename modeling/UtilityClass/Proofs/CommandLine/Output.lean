import UtilityClass.CommandLine.Run
import UtilityClass.Proofs.Report.Json
import UtilityClass.Proofs.Text.Ascii
import UtilityClass.Proofs.Text.Words

/-!
# What every output takes

The JSON report is written in ASCII, whatever characters the tokens have, and so is all that is
printed as help.  Every output takes texts of ASCII.  So a run can only break off over the report
for a reader, and it does on an output of ASCII as soon as there is a token to report on.

## Key results

- `Json.isAscii_render`: a JSON document is written in ASCII
- `Output.carries_of_isAscii`: every output takes texts of ASCII
- `Output.carries_json` / `Output.carries_text_ascii_iff`: which reports an output takes
- `Program.exists_job_of_traceback`: which runs can break off in printing
-/

namespace UtilityClass

/-! ## Texts of ASCII -/

namespace Text

/-- Whether all characters of a text are in ASCII. -/
def IsAscii (t : Text) : Prop := ∀ c ∈ t, isAscii c = true

instance (t : Text) : Decidable (IsAscii t) :=
  decidable_of_iff (t.all isAscii = true) List.all_eq_true

/-- The empty text has no character that could not be in ASCII. -/
theorem isAscii_nil : IsAscii [] := List.forall_mem_nil _

/-- Two texts of ASCII make one. -/
theorem isAscii_append {t u : Text} (ht : IsAscii t) (hu : IsAscii u) : IsAscii (t ++ u) :=
  List.forall_mem_append.2 ⟨ht, hu⟩

/-- A text of ASCII may begin with one more character of ASCII. -/
theorem isAscii_cons {c : Char} {t : Text} (hc : isAscii c = true) (ht : IsAscii t) :
    IsAscii (c :: t) :=
  List.forall_mem_cons.2 ⟨hc, ht⟩

/-- Texts of ASCII with such a text between them are one. -/
theorem isAscii_intercalate {separator : Text} {ts : List Text} (hseparator : IsAscii separator)
    (hts : ∀ t ∈ ts, IsAscii t) : IsAscii (separator.intercalate ts) := by
  intro c hc
  rcases mem_intercalate hc with hmem | ⟨t, ht, hmem⟩
  · exact hseparator c hmem
  · exact hts t ht c hmem

/-- The text of a string literal goes by the characters that are listed in it. -/
theorem isAscii_ofList {t : List Char} (h : t.all isAscii = true) :
    IsAscii (String.ofList t).toList := by
  rw [String.toList_ofList]
  exact List.all_eq_true.1 h

/-- The digits from `0` to `9` are in ASCII. -/
theorem isAscii_of_isDigit {c : Char} (h : c.isDigit = true) : isAscii c = true := by
  have hbound := (isDigit_iff.1 h).2
  rw [isAscii, decide_eq_true_iff]
  omega

/-- Digits to the base of sixteen are in ASCII, however many are written. -/
theorem isAscii_hexDigits (width code : Nat) : IsAscii (hexDigits width code) := by
  have hdigit : ∀ i < 16, isAscii (Nat.digitChar i) = true := by decide
  -- by induction on the width, over all codes, for each digit is the remainder of its own code
  induction width generalizing code with
  | zero => exact isAscii_nil
  | succ width ih =>
    refine isAscii_append (ih _) ?_
    exact isAscii_cons (hdigit _ (Nat.mod_lt _ (by decide))) isAscii_nil

end Text

/-! ## JSON documents -/

namespace Json

open Text (IsAscii isAscii_append isAscii_cons)

/-- A unit is written by a backslash, a letter and four digits. -/
theorem isAscii_unit (n : Nat) : IsAscii (unit n) :=
  isAscii_cons (by decide) (isAscii_cons (by decide) (Text.isAscii_hexDigits 4 n))

/-- Whatever the character, it is written in ASCII: as it is if it is printable there, else by a
    letter or by its units. -/
theorem isAscii_escape (c : Char) : IsAscii (escape c) := by
  unfold escape
  split
  · next hmark => rcases hmark with rfl | rfl <;> decide
  · split
    · next hprintable =>
      -- a character that is written as it is comes before the tilde, at the latest
      have hbound : c.toNat ≤ '~'.toNat := UInt32.le_iff_toNat_le.1 hprintable.2
      have htilde : '~'.toNat = 126 := rfl
      refine isAscii_cons ?_ Text.isAscii_nil
      rw [Text.isAscii, decide_eq_true_iff]
      omega
    -- each short escape is a literal; the others are one unit, or the two of a pair
    · repeat' split
      · decide
      · decide
      · decide
      · decide
      · decide
      · exact isAscii_unit _
      · exact isAscii_append (isAscii_unit _) (isAscii_unit _)

/-- A string is its escaped characters between two quotation marks. -/
theorem isAscii_quote (t : Text) : IsAscii (quote t) := by
  refine isAscii_cons (by decide) (isAscii_append ?_ (by decide))
  intro c hc
  obtain ⟨d, -, hmem⟩ := List.mem_flatMap.1 hc
  exact isAscii_escape d c hmem

/-- A line begins with a line feed and spaces. -/
theorem isAscii_newLine (column : Nat) : IsAscii (newLine column) := by
  refine isAscii_cons (by decide) ?_
  intro c hc
  rw [List.eq_of_mem_replicate hc]
  decide

/-- Items in ASCII between borders in ASCII. -/
theorem isAscii_block {lead close : Char} (column : Nat) {items : List Text}
    (hlead : Text.isAscii lead = true) (hclose : Text.isAscii close = true)
    (hitems : ∀ item ∈ items, IsAscii item) : IsAscii (block lead close column items) := by
  have hseparator : IsAscii (',' :: newLine (column + 2)) :=
    isAscii_cons (by decide) (isAscii_newLine _)
  unfold block
  -- a block without items has nothing between its borders
  split
  · exact isAscii_cons hlead (isAscii_cons hclose Text.isAscii_nil)
  · refine isAscii_append (isAscii_append (isAscii_append ?_ ?_) (isAscii_newLine _)) ?_
    · exact isAscii_cons hlead (isAscii_newLine _)
    · exact Text.isAscii_intercalate hseparator hitems
    · exact isAscii_cons hclose Text.isAscii_nil

/-- A JSON document is written in ASCII. -/
theorem isAscii_render (column : Nat) (j : Json) : IsAscii (render column j) := by
  -- one case per kind of document; arrays and objects are blocks of what the hypothesis is about
  induction j using inductOnItems generalizing column with
  | null => exact (by decide : IsAscii "null".toList)
  | bool b =>
    cases b with
    | false => exact (by decide : IsAscii "false".toList)
    | true => exact (by decide : IsAscii "true".toList)
  | number n => exact fun c hc => Text.isAscii_of_isDigit (isDigit_of_mem_ofNat hc)
  | string t => exact isAscii_quote t
  | array items ih =>
    rw [render, renderItems_eq_map]
    refine isAscii_block column (by decide) (by decide) ?_
    intro item hitem
    obtain ⟨j, hj, rfl⟩ := List.mem_map.1 hitem
    exact ih j hj _
  | object fields ih =>
    rw [render, renderFields_eq_map]
    refine isAscii_block column (by decide) (by decide) ?_
    intro item hitem
    obtain ⟨field, hfield, rfl⟩ := List.mem_map.1 hitem
    exact isAscii_append (isAscii_append (isAscii_quote _) (by decide)) (ih field hfield _)

end Json

/-! ## Outputs -/

namespace Output

/-- Every output takes texts of ASCII. -/
theorem carries_of_isAscii (out : Output) {t : Text} (h : Text.IsAscii t) : out.carries t = true :=
  List.all_eq_true.2 fun c hc => out.takes_of_isAscii c (h c hc)

/-- The line feed behind a line makes no difference. -/
theorem carries_printed (out : Output) (t : Text) :
    out.carries (Program.printed [t]) = out.carries t := by
  have hfeed : out.takes '\n' = true := out.takes_of_isAscii '\n' (by decide)
  simp [carries, Program.printed, hfeed]

/-- An output of Unicode takes every text. -/
theorem carries_unicode (t : Text) : unicode.carries t = true := List.all_eq_true.2 fun _ _ => rfl

variable [ColorReader]

/-- Every output takes the JSON report. -/
theorem carries_json (out : Output) (empty : EmptyPrefix) (results : Cache) :
    out.carries (Report.json empty results) = true :=
  out.carries_of_isAscii (Json.isAscii_render 0 _)

/-- An output of ASCII takes the report for a reader exactly if there is nothing to report. -/
theorem carries_text_ascii_iff (results : Cache) :
    ascii.carries (Report.text results) = true ↔ results.entries = [] := by
  have hlead : ∀ e : Text × Option Candidate, '─' ∈ (Report.entryLines e).flatten := by
    rintro ⟨raw, answer⟩
    cases answer <;> simp [Report.entryLines, Report.entryLead]
  constructor
  · intro h
    -- the line about a token opens with a character that is not in ASCII
    cases hentries : results.entries with
    | nil => rfl
    | cons e more =>
      obtain ⟨line, hline, hmem⟩ := List.mem_flatten.1 (hlead e)
      have hlines : line ∈ results.entries.flatMap Report.entryLines ++
          if results.size = 0 then [] else [Report.tallyLine (Tally.ofResults results)] := by
        rw [hentries]
        exact List.mem_append_left _ (List.mem_flatMap.2 ⟨e, List.mem_cons_self, hline⟩)
      -- a character of a line is one of the report, whatever stands around the line
      have htext : '─' ∈ Report.text results := (Text.infix_intercalate hlines).subset hmem
      exact absurd (List.all_eq_true.1 h '─' htext) (by decide)
  · intro h
    have hsize : results.size = 0 := by rw [Ledger.size, h]; rfl
    rw [Report.text, if_pos hsize, h]
    rfl

end Output

/-! ## Documentation -/

namespace Program

/-- Lines in ASCII are printed in ASCII, each with a line feed behind it. -/
theorem isAscii_printed {lines : List Text} (h : ∀ line ∈ lines, Text.IsAscii line) :
    Text.IsAscii (printed lines) := by
  intro c hc
  obtain ⟨line, hline, hmem⟩ := List.mem_flatMap.1 hc
  exact Text.isAscii_append (h line hline) (by decide) c hmem

/-- The documentation of every command is written in ASCII. -/
theorem isAscii_manual {c : Command} (hc : c ∈ Command.all) :
    ∀ line ∈ c.manual, Text.IsAscii line := by
  have hall : c ∈ [Command.parse, Command.scan] := hc
  simp only [List.mem_cons, List.not_mem_nil, or_false] at hall
  obtain rfl | rfl := hall
  all_goals
    -- line by line, each by the characters of its literal
    repeat refine List.forall_mem_cons.2 ⟨Text.isAscii_ofList rfl, ?_⟩
    exact List.forall_mem_nil _

/-- The list of commands is written in ASCII: names, and the first lines of documentation. -/
theorem isAscii_commandList : ∀ line ∈ commandList, Text.IsAscii line := by
  have hname : ∀ c ∈ Command.all, Text.IsAscii ("  ".toList ++ padded c.name ++ [' ']) := by
    decide +kernel
  have hheadline : ∀ c ∈ Command.all, Text.IsAscii c.headline := by
    intro c hc
    have hmanual := isAscii_manual hc
    simp only [Command.all, List.mem_cons, List.not_mem_nil, or_false] at hc
    obtain rfl | rfl := hc <;> exact hmanual _ List.mem_cons_self
  unfold commandList
  refine List.forall_mem_append.2 ⟨List.forall_mem_append.2 ⟨by decide +kernel, ?_⟩, ?_⟩
  · intro line hline
    obtain ⟨c, hc, rfl⟩ := List.mem_map.1 hline
    exact Text.isAscii_append (hname c hc) (hheadline c hc)
  · refine List.forall_mem_cons.2 ⟨Text.isAscii_nil, List.forall_mem_singleton.2 ?_⟩
    exact Text.isAscii_ofList rfl

/-- The screen of help is written in ASCII. -/
theorem isAscii_helpScreen : Text.IsAscii helpScreen := by
  apply isAscii_printed
  repeat refine List.forall_mem_cons.2 ⟨Text.isAscii_ofList rfl, ?_⟩
  exact List.forall_mem_nil _

/-- What is printed in ASCII breaks no run off. -/
theorem print_of_isAscii (out : Output) {t : Text} (h : Text.IsAscii t) (stderr : Text)
    (next : Text → Outcome) : print out t stderr next = next t :=
  if_pos (out.carries_of_isAscii h)

/-- No documentation breaks a run off. -/
theorem traceback_manual (out : Output) (stderr : Text) (topic : Option Text) :
    (manual out stderr topic).traceback = false := by
  cases topic with
  | none => rw [manual, print_of_isAscii out (isAscii_printed isAscii_commandList)]
  | some topic =>
    rw [manual]
    split
    · next c hc =>
      have hmanual := isAscii_manual (List.mem_of_find?_eq_some hc)
      rw [print_of_isAscii out (isAscii_printed hmanual)]
    · rfl

/-- A run that breaks off in printing has a job to report on. -/
theorem exists_job_of_traceback [ColorReader] {w : World} {arguments : List Text} {out : Output}
    {o : Outcome} (h : run w arguments out = .ok o) (htraceback : o.traceback = true) :
    ∃ request j, Request.ofArguments arguments = .ok request ∧ request.task = .job j := by
  unfold run at h
  split at h
  · next e _ =>
    -- a command line that asks for nothing is answered in ASCII, or on the error stream alone
    cases h
    cases e with
    | helpScreen =>
      rw [refused, print_of_isAscii out isAscii_helpScreen] at htraceback
      exact nomatch htraceback
    -- the command line asks for something, which is refused, or is help, or is a job
    | usage command e => exact nomatch htraceback
  · next request hrequest =>
    dsimp only at h
    split at h
    · exact nomatch h
    · unfold fulfil at h
      cases htask : request.task with
      | none =>
        simp only [htask, print_of_isAscii out isAscii_helpScreen] at h
        cases h
        exact nomatch htraceback
      | manual topic =>
        simp only [htask] at h
        cases h
        rw [traceback_manual] at htraceback
        exact nomatch htraceback
      | job j => exact ⟨request, j, hrequest, htask⟩

end Program

end UtilityClass
