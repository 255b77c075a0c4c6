import UtilityClass.Report.Json
import UtilityClass.Parser
import UtilityClass.Value.DataType

/-!
# Reports

The results of parsing are reported as text for a reader or as a JSON document.  Both list the
tokens in the order of the results and end with how many were parsed and rejected.
-/

namespace UtilityClass

/-- Counts over results. -/
structure Tally where
  total : Nat
  parsed : Nat
  deriving DecidableEq, Repr

/-- How many tokens were not parsed. -/
def Tally.rejected (t : Tally) : Nat := t.total - t.parsed

/-- The counts over results. -/
def Tally.ofResults (results : Cache) : Tally :=
  ⟨results.size, (results.entries.filter fun e => e.2.isSome).length⟩

/-! ## JSON -/

/-- A part as a JSON value: a plain word is a string, a bracketed one an object. -/
def Part.toJson : Part → Json
  | plain text => .string text
  | bracketed inner => .object [("type", .string "custom"), ("value", .string inner)]

/-- The fields that only some kinds of candidate have. -/
def Body.jsonFields [ColorReader] : Body → List (Text × Json)
  | utility _ => []
  | property _ value => [("value", .string value)]
  | custom _ value tag => [
      ("value", .string value),
      ("valueType", .string tag),
      if tag = untagged then
        ("inferredType", ((DataType.infer? value).map fun d => Json.string d.name).getD .null)
      else ("typeMatches", .bool (DataType.tagAccepts tag value))]

/-- How the JSON report writes an empty class prefix: as a string, or, where a prefix was asked for
without a value, as an array of no texts. -/
inductive EmptyPrefix where
  | string
  | array
  deriving DecidableEq, Repr

/-- A class prefix as a JSON value. -/
def EmptyPrefix.toJson (empty : EmptyPrefix) (classPrefix : Text) : Json :=
  match empty, classPrefix with
  | array, [] => .array []
  | _, t => .string t

/-- The fields that every candidate has. -/
def Candidate.jsonFields (empty : EmptyPrefix) (c : Candidate) : List (Text × Json) := [
  ("raw", .string c.raw),
  ("type", .string c.body.kind),
  ("name", .string c.body.name),
  ("prefix", empty.toJson c.classPrefix),
  ("important", .bool c.important),
  ("negative", .bool c.negative),
  ("variants", .array (c.variants.map Part.toJson)),
  ("modifiers", .array (c.modifiers.map Part.toJson))]

/-- A candidate as a JSON value. -/
def Candidate.toJson [ColorReader] (empty : EmptyPrefix) (c : Candidate) : Json :=
  .object (c.jsonFields empty ++ c.body.jsonFields)

namespace Report

/-- The result for one token as a JSON value. -/
def entryJson [ColorReader] (empty : EmptyPrefix) : Text × Option Candidate → Json
  | (raw, none) => .object [("raw", .string raw), ("type", .null)]
  | (_, some c) => c.toJson empty

/-- The results as a JSON document. -/
def document [ColorReader] (empty : EmptyPrefix) (results : Cache) : Json :=
  let tally := Tally.ofResults results
  .object [
    ("candidates", .array (results.entries.map (entryJson empty))),
    ("summary", .object [
      ("total", .number tally.total),
      ("parsed", .number tally.parsed),
      ("rejected", .number tally.rejected)])]

/-- The results as the text of a JSON document. -/
def json [ColorReader] (empty : EmptyPrefix) (results : Cache) : Text :=
  (document empty results).render 0

/-! ## Text -/

/-- Texts with a comma and a space between them. -/
def commaList (ts : List Text) : Text := List.intercalate [',', ' '] ts

/-- The opening of the first line about a token. -/
def entryLead : Text := "── "

/-- The line that names the flags of a candidate, behind its kind. -/
def flagsText (c : Candidate) : Text :=
  let flags := (if c.important then ["important".toList] else [])
    ++ (if c.negative then ["negative".toList] else [])
  if flags.isEmpty then [] else " (".toList ++ commaList flags ++ [')']

/-- The type of a custom value: what an untagged value looks like, and whether a tagged one
matches its tag. -/
def typeText [ColorReader] (value tag : Text) : Text :=
  if tag = Body.untagged then
    match DataType.infer? value with
    | some d => tag ++ " (looks like ".toList ++ d.name ++ [')']
    | none => tag
  else if DataType.tagAccepts tag value then tag
  else tag ++ " (tag does not match value)".toList

/-- The lines about the value of a candidate. -/
def bodyLines [ColorReader] : Body → List Text
  | .utility _ => []
  | .property _ value => ["  value: ".toList ++ value]
  | .custom _ value tag => ["  value: ".toList ++ value, "  type: ".toList ++ typeText value tag]

/-- A line with a label, unless there is nothing to say. -/
def labelled (label content : Text) : List Text :=
  if content.isEmpty then [] else [label ++ content]

/-- A line with parts, unless there is none. -/
def partsLine (label : Text) (parts : List Part) : List Text :=
  if parts.isEmpty then [] else [label ++ commaList (parts.map Part.render)]

/-- The lines about one token; the last one is empty. -/
def entryLines [ColorReader] : Text × Option Candidate → List Text
  | (raw, none) => [entryLead ++ raw ++ "  ✗ no candidate".toList, []]
  | (raw, some c) =>
    [entryLead ++ raw ++ "  ".toList ++ c.body.kind ++ flagsText c,
      "  name: ".toList ++ c.body.name]
    ++ bodyLines c.body
    ++ partsLine "  variants: " c.variants
    ++ partsLine "  modifiers: " c.modifiers
    ++ labelled "  prefix: " c.classPrefix
    ++ [[]]

/-- The line with the counts. -/
def tallyLine (t : Tally) : Text :=
  "PARSED ".toList ++ Text.ofNat t.parsed ++ ['/'] ++ Text.ofNat t.total
    ++ " tokens  REJECTED ".toList ++ Text.ofNat t.rejected ++ ['/'] ++ Text.ofNat t.total
    ++ " tokens".toList

/-- The results as text for a reader; nothing if there are none. -/
def text [ColorReader] (results : Cache) : Text :=
  List.intercalate ['\n'] (results.entries.flatMap entryLines
    ++ if results.size = 0 then [] else [tallyLine (Tally.ofResults results)])

end Report

end UtilityClass
