import Mathlib.Data.List.Forall2
import UtilityClass.Proofs.Report.Results

/-!
# What a report says

Both reports say of each token, in the order of the results, whether it was rejected, and they count
the tokens, the parsed ones and the rejected ones.  The JSON document says so in its fields.  In the
text each token has a block of lines: a line that names the token and its verdict, lines of detail
behind two spaces, and an empty one.  The counts come last; where there are no tokens they are
left out.

## Key results

- `Findings.ofDocument?_document`: the findings are read off the JSON document
- `Findings.fills_lines`: the lines of the text are filled with the same findings
- `Findings.Fills.tokens_unique`: lines are filled with one list of tokens and verdicts only
-/

namespace UtilityClass

/-! ## Looking into JSON values -/

namespace Json

/-- A field of an object. -/
def field? (j : Json) (name : Text) : Option Json :=
  match j with
  | object fields => fields.lookup name
  | _ => none

/-- The items of an array. -/
def items? : Json → Option (List Json)
  | array items => some items
  | _ => none

/-- The text of a string. -/
def text? : Json → Option Text
  | string t => some t
  | _ => none

/-- The value of a number. -/
def number? : Json → Option Nat
  | number n => some n
  | _ => none

/-- Whether a value is `null`. -/
def isNull : Json → Bool
  | null => true
  | _ => false

end Json

/-- What a report says about tokens. -/
structure Findings where
  /-- The tokens in order, each with whether it was rejected. -/
  tokens : List (Text × Bool)
  total : Nat
  parsed : Nat
  rejected : Nat
  deriving DecidableEq, Repr

namespace Findings

/-- What there is to say about results. -/
def ofResults (results : Cache) : Findings where
  tokens := results.entries.map fun e => (e.1, e.2.isNone)
  total := results.entries.length
  parsed := results.entries.countP fun e => e.2.isSome
  rejected := results.entries.countP fun e => e.2.isNone

/-- The tokens that were rejected, in order. -/
def rejectedTokens (f : Findings) : List Text := (f.tokens.filter Prod.snd).map Prod.fst

/-- The rejected tokens are those whose results are rejections. -/
theorem rejectedTokens_ofResults (results : Cache) :
    (ofResults results).rejectedTokens =
      (results.entries.filter fun e => e.2.isNone).map Prod.fst := by
  simp only [rejectedTokens, ofResults, List.filter_map, List.map_map]
  rfl

/-- There are as many rejected tokens as their count says. -/
theorem length_rejectedTokens (results : Cache) :
    (ofResults results).rejectedTokens.length = (ofResults results).rejected := by
  rw [rejectedTokens_ofResults, List.length_map, ← List.countP_eq_length_filter]
  rfl

/-- The tally has the total of the findings. -/
theorem total_ofResults (results : Cache) :
    (Tally.ofResults results).total = (ofResults results).total := rfl

/-- The tally counts the parsed tokens like the findings. -/
theorem parsed_ofResults (results : Cache) :
    (Tally.ofResults results).parsed = (ofResults results).parsed :=
  List.countP_eq_length_filter.symm

/-- The tokens that are not parsed are the rejected ones. -/
theorem rejected_ofResults (results : Cache) :
    (Tally.ofResults results).rejected = (ofResults results).rejected := by
  have hcount := List.length_eq_countP_add_countP
    (fun e : Text × Option Candidate => e.2.isSome) (l := results.entries)
  have hnone : (fun e : Text × Option Candidate => decide (¬e.2.isSome = true)) =
      fun e => e.2.isNone := by
    funext e
    cases e.2 <;> rfl
  -- what is no candidate is a rejection, so both counts together are the total
  rw [hnone] at hcount
  simp only [Tally.rejected, Tally.ofResults, ofResults, Ledger.size,
    ← List.countP_eq_length_filter]
  omega

/-! ## The JSON document -/

/-- What an item of the JSON document says: the token, and that it has no type if it was
rejected. -/
def ofItem? (item : Json) : Option (Text × Bool) := do
  let raw ← (← item.field? "raw").text?
  return (raw, (← item.field? "type").isNull)

/-- A count in the summary of the JSON document. -/
def count? (summary : Json) (name : Text) : Option Nat := do (← summary.field? name).number?

/-- What the JSON document says. -/
def ofDocument? (document : Json) : Option Findings := do
  let items ← (← document.field? "candidates").items?
  let summary ← document.field? "summary"
  return {
    tokens := ← items.mapM ofItem?
    total := ← count? summary "total"
    parsed := ← count? summary "parsed"
    rejected := ← count? summary "rejected" }

/-- An item says which token it is about and whether it was rejected. -/
theorem ofItem?_entryJson [ColorReader] (empty : EmptyPrefix) {e : Text × Option Candidate}
    (hraw : ∀ c, e.2 = some c → c.raw = e.1) :
    ofItem? (Report.entryJson empty e) = some (e.1, e.2.isNone) := by
  obtain ⟨raw, answer⟩ := e
  cases answer with
  | none => rfl
  | some c =>
    obtain rfl : c.raw = raw := hraw c rfl
    rfl

/-- The items say so one by one. -/
theorem mapM_ofItem? [ColorReader] (empty : EmptyPrefix) {es : List (Text × Option Candidate)}
    (hraw : ∀ e ∈ es, ∀ c, e.2 = some c → c.raw = e.1) :
    (es.map (Report.entryJson empty)).mapM ofItem? = some (es.map fun e => (e.1, e.2.isNone)) := by
  induction es with
  | nil => rfl
  | cons e more ih =>
    obtain ⟨he, hmore⟩ := List.forall_mem_cons.1 hraw
    -- the item of a candidate bears the candidate's own token, which is the one it is listed under
    rw [List.map_cons, List.mapM_cons, ofItem?_entryJson empty he, ih hmore]
    rfl

/-- The findings are read off the JSON document. -/
theorem ofDocument?_document [ColorReader] (empty : EmptyPrefix) {results : Cache}
    (hraw : ∀ e ∈ results.entries, ∀ c, e.2 = some c → c.raw = e.1) :
    ofDocument? (Report.document empty results) = some (ofResults results) := by
  -- the summary is read off its fields by computation, and the items are left to be read
  have hread : ofDocument? (Report.document empty results) =
      ((results.entries.map (Report.entryJson empty)).mapM ofItem?).bind fun tokens =>
        some ⟨tokens, (Tally.ofResults results).total, (Tally.ofResults results).parsed,
          (Tally.ofResults results).rejected⟩ := rfl
  rw [hread, mapM_ofItem? empty hraw, rejected_ofResults, parsed_ofResults]
  rfl

/-! ## The text -/

/-- What the line about a token can end in: the one verdict on rejected tokens, or the kind of the
candidate and its flags. -/
def verdicts : Bool → List Text
  | true => ["✗ no candidate"]
  | false =>
    (["utility", "property", "custom"] : List Text).flatMap fun kind =>
      (["", " (important)", " (negative)", " (important, negative)"] : List Text).map (kind ++ ·)

/-- The line that names a token and the verdict on it. -/
def headLine (token verdict : Text) : Text := "── ".toList ++ token ++ "  ".toList ++ verdict

/-- The lines about one token. -/
def IsBlock (token : Text × Bool) (block : List Text) : Prop :=
  ∃ verdict ∈ verdicts token.2, ∃ details,
    block = headLine token.1 verdict :: (details ++ [[]]) ∧ ∀ d ∈ details, "  ".toList <+: d

/-- The line with the counts. -/
def countLine (f : Findings) : Text :=
  "PARSED ".toList ++ Text.ofNat f.parsed ++ ['/'] ++ Text.ofNat f.total
    ++ " tokens  REJECTED ".toList ++ Text.ofNat f.rejected ++ ['/'] ++ Text.ofNat f.total
    ++ " tokens".toList

/-- Lines that say what is found: one block for each token in order, then the counts unless there
are no tokens. -/
def Fills (f : Findings) (lines : List Text) : Prop :=
  ∃ blocks, List.Forall₂ IsBlock f.tokens blocks ∧
    lines = blocks.flatten ++ if f.tokens = [] then [] else [f.countLine]

/-! ### The lines that are written -/

/-- The kind of a candidate and its flags are a verdict on a parsed token. -/
theorem kind_flagsText_mem (c : Candidate) :
    c.body.kind ++ Report.flagsText c ∈ verdicts false := by
  -- three kinds and two flags: each combination is on the list
  have hkind : c.body.kind ∈ (["utility", "property", "custom"] : List Text) := by
    cases c.body with
    | utility name => exact .head _
    | property name value => exact .tail _ (.head _)
    | custom name value tag => exact .tail _ (.tail _ (.head _))
  have hflags : Report.flagsText c ∈
      (["", " (important)", " (negative)", " (important, negative)"] : List Text) := by
    unfold Report.flagsText
    cases c.important <;> cases c.negative <;> decide +kernel
  exact List.mem_flatMap.2 ⟨_, hkind, List.mem_map_of_mem hflags⟩

/-- A line with a label opens with the label. -/
theorem isPrefix_of_mem_labelled {label content d : Text}
    (h : d ∈ Report.labelled label content) : label <+: d := by
  unfold Report.labelled at h
  split at h
  · exact nomatch h
  · rw [List.mem_singleton.1 h]
    exact List.prefix_append _ _

/-- A line with parts opens with its label. -/
theorem isPrefix_of_mem_partsLine {label : Text} {parts : List Part} {d : Text}
    (h : d ∈ Report.partsLine label parts) : label <+: d := by
  unfold Report.partsLine at h
  split at h
  · exact nomatch h
  · rw [List.mem_singleton.1 h]
    exact List.prefix_append _ _

/-- A line about a body opens with two spaces. -/
theorem isPrefix_of_mem_bodyLines [ColorReader] {body : Body} {d : Text}
    (h : d ∈ Report.bodyLines body) :
    "  ".toList <+: d := by
  cases body with
  | utility name => exact nomatch h
  | property name value =>
    rw [List.mem_singleton.1 h]
    exact ⟨_, rfl⟩
  | custom name value tag =>
    simp only [Report.bodyLines, List.mem_cons, List.not_mem_nil, or_false] at h
    obtain rfl | rfl := h
    · exact ⟨_, rfl⟩
    · exact ⟨_, rfl⟩

/-- The block of a rejected token is its line and an empty one. -/
theorem entryLines_rejected [ColorReader] (raw : Text) :
    Report.entryLines (raw, none) = [headLine raw "✗ no candidate", []] := by
  have hverdict : "  ✗ no candidate".toList = "  ".toList ++ "✗ no candidate".toList := by
    decide +kernel
  simp only [Report.entryLines, Report.entryLead, headLine, List.append_assoc, hverdict]

/-- The block of a parsed token is its line, the lines of detail and an empty one. -/
theorem entryLines_parsed [ColorReader] (raw : Text) (c : Candidate) :
    Report.entryLines (raw, some c) = headLine raw (c.body.kind ++ Report.flagsText c) ::
      (("  name: ".toList ++ c.body.name) :: (Report.bodyLines c.body
        ++ Report.partsLine "  variants: " c.variants
        ++ Report.partsLine "  modifiers: " c.modifiers
        ++ Report.labelled "  prefix: " c.classPrefix) ++ [[]]) := by
  simp only [Report.entryLines, Report.entryLead, headLine, List.append_assoc, List.cons_append,
    List.nil_append]

/-- The lines about a token are a block about the token and whether it was rejected. -/
theorem isBlock_entryLines [ColorReader] (e : Text × Option Candidate) :
    IsBlock (e.1, e.2.isNone) (Report.entryLines e) := by
  obtain ⟨raw, answer⟩ := e
  cases answer with
  | none =>
    exact ⟨_, List.mem_singleton_self _, [], entryLines_rejected raw, List.forall_mem_nil _⟩
  | some c =>
    refine ⟨_, kind_flagsText_mem c, _, entryLines_parsed raw c, ?_⟩
    -- every label opens with the two spaces
    have hlabel {label d : Text} (hlabel : "  ".toList <+: label) (h : label <+: d) :
        "  ".toList <+: d := hlabel.trans h
    intro d hd
    simp only [List.mem_cons, List.mem_append] at hd
    obtain rfl | ((hd | hd) | hd) | hd := hd
    · exact ⟨_, rfl⟩
    · exact isPrefix_of_mem_bodyLines hd
    · exact hlabel ⟨_, rfl⟩ (isPrefix_of_mem_partsLine hd)
    · exact hlabel ⟨_, rfl⟩ (isPrefix_of_mem_partsLine hd)
    · exact hlabel ⟨_, rfl⟩ (isPrefix_of_mem_labelled hd)

/-- The lines of the text are filled with the findings. -/
theorem exists_fills_text [ColorReader] (results : Cache) :
    ∃ lines, (ofResults results).Fills lines ∧
      Report.text results = ['\n'].intercalate lines := by
  refine ⟨_, ⟨results.entries.map Report.entryLines, ?_, rfl⟩, ?_⟩
  -- entry by entry, each with its block
  · exact (List.forall₂_map_left_iff.2 (List.forall₂_map_right_iff.2
      (List.forall₂_same.2 fun e _ => isBlock_entryLines e)))
  · have hcounts : Report.tallyLine (Tally.ofResults results) = (ofResults results).countLine := by
      unfold Report.tallyLine countLine
      rw [rejected_ofResults, parsed_ofResults, total_ofResults]
    have hempty : results.size = 0 ↔ (ofResults results).tokens = [] := by
      simp [Ledger.size, ofResults]
    rw [Report.text, List.flatMap_def]
    congr 2
    -- both leave out the counts if there are no results
    by_cases hsize : results.size = 0
    · rw [if_pos hsize, if_pos (hempty.1 hsize)]
    · rw [if_neg hsize, if_neg (mt hempty.2 hsize), hcounts]

/-! ### What the lines say -/

/-- No verdict ends another one with the two spaces in front of it, so the line about a token
determines the token and the verdict. -/
theorem headLine_inj {token token' verdict verdict' : Text} {b b' : Bool}
    (hv : verdict ∈ verdicts b) (hv' : verdict' ∈ verdicts b')
    (h : headLine token verdict = headLine token' verdict') : token = token' ∧ b = b' := by
  -- there are only a few verdicts, so each is compared with each
  have hends : ∀ b, ∀ v ∈ verdicts b, ∀ b', ∀ v' ∈ verdicts b',
      "  ".toList ++ v <:+ "  ".toList ++ v' → v = v' ∧ b = b' := by
    decide +kernel
  simp only [headLine, List.append_assoc, List.append_cancel_left_eq] at h
  -- both verdicts end the same line, so one of them is an end of the other
  have hsuffix := List.suffix_or_suffix_of_suffix
    (List.suffix_append token ("  ".toList ++ verdict)) (h ▸ List.suffix_append token' _)
  obtain ⟨rfl, rfl⟩ : verdict = verdict' ∧ b = b' := by
    obtain hsuffix | hsuffix := hsuffix
    · exact hends b verdict hv b' verdict' hv' hsuffix
    · exact (hends b' verdict' hv' b verdict hv hsuffix).imp Eq.symm Eq.symm
  exact ⟨List.append_cancel_right h, rfl⟩

/-- Lines of detail end at the first empty line. -/
theorem details_append_inj {details details' rest rest' : List Text}
    (hd : ∀ d ∈ details, "  ".toList <+: d) (hd' : ∀ d ∈ details', "  ".toList <+: d)
    (h : details ++ [] :: rest = details' ++ [] :: rest') : rest = rest' := by
  -- line by line; a line of detail is not empty, so both lists of details end at once
  induction details generalizing details' with
  | nil =>
    cases details' with
    | nil => exact (List.cons.inj h).2
    | cons d more =>
      obtain ⟨⟨t, ht⟩, -⟩ := List.forall_mem_cons.1 hd'
      rw [← ht] at h
      exact nomatch (List.cons.inj h).1
  | cons d more ih =>
    obtain ⟨⟨t, ht⟩, hmore⟩ := List.forall_mem_cons.1 hd
    cases details' with
    | nil =>
      rw [← ht] at h
      exact nomatch (List.cons.inj h).1
    | cons d' more' =>
      exact ih hmore (List.forall_mem_cons.1 hd').2 (List.cons.inj h).2

/-- The line about a token opens with a stroke. -/
theorem head?_headLine (token verdict : Text) : (headLine token verdict).head? = some '─' := rfl

/-- Blocks in front of a line that names no token are about one list of tokens and verdicts
only. -/
theorem blocks_append_inj {tokens tokens' : List (Text × Bool)}
    {blocks blocks' : List (List Text)} {rest rest' : List Text}
    (hblocks : List.Forall₂ IsBlock tokens blocks) (hblocks' : List.Forall₂ IsBlock tokens' blocks')
    (hrest : ∀ l ∈ rest.head?, l.head? ≠ some '─') (hrest' : ∀ l ∈ rest'.head?, l.head? ≠ some '─')
    (h : blocks.flatten ++ rest = blocks'.flatten ++ rest') : tokens = tokens' := by
  -- block by block; a block has a first line with a stroke, which the rest has not
  induction hblocks generalizing tokens' blocks' with
  | nil =>
    cases hblocks' with
    | nil => rfl
    | cons hblock hmore =>
      obtain ⟨verdict, -, details, rfl, -⟩ := hblock
      rw [List.flatten_nil, List.nil_append] at h
      exact absurd (head?_headLine _ verdict) (hrest _ (by rw [h]; rfl))
  | cons hblock hmore ih =>
    obtain ⟨verdict, hv, details, rfl, hd⟩ := hblock
    cases hblocks' with
    | nil =>
      rw [List.flatten_nil, List.nil_append] at h
      exact absurd (head?_headLine _ verdict) (hrest' _ (by rw [← h]; rfl))
    | cons hblock' hmore' =>
      obtain ⟨verdict', hv', details', rfl, hd'⟩ := hblock'
      simp only [List.flatten_cons, List.cons_append, List.append_assoc, List.nil_append] at h
      -- the first lines agree on the token, and the first empty line ends both blocks
      obtain ⟨hhead, hdetails⟩ := List.cons.inj h
      obtain ⟨htoken, hverdict⟩ := headLine_inj hv hv' hhead
      rw [Prod.ext htoken hverdict, ih hmore' (details_append_inj hd hd' hdetails)]

/-- The line with the counts opens with no stroke. -/
theorem head?_countLine (f : Findings) : f.countLine.head? = some 'P' := rfl

/-- Lines are filled with one list of tokens and verdicts only. -/
theorem Fills.tokens_unique {f f' : Findings} {lines : List Text} (h : f.Fills lines)
    (h' : f'.Fills lines) : f.tokens = f'.tokens := by
  -- what is left behind the blocks is the line with the counts, or nothing
  have hcounts (f : Findings) :
      ∀ l ∈ (if f.tokens = [] then [] else [f.countLine]).head?, l.head? ≠ some '─' := by
    intro l hl
    split at hl
    · exact nomatch hl
    · rw [List.head?_cons, Option.mem_def, Option.some.injEq] at hl
      rw [← hl, head?_countLine]
      decide
  obtain ⟨blocks, hblocks, rfl⟩ := h
  obtain ⟨blocks', hblocks', hlines⟩ := h'
  exact blocks_append_inj hblocks hblocks' (hcounts f) (hcounts f') hlines

end Findings

end UtilityClass
