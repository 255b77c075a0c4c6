import UtilityClass.Proofs.Candidate.Token
import UtilityClass.Proofs.Report.Json
import UtilityClass.Proofs.Session.Batch
import UtilityClass.Report.Results
import UtilityClass.Value.Color

/-!
# Reports lose nothing

The JSON report names every part of every result, so results can be read back from the document.  A
rejection has no type, a bracketed part is an object and a plain one a string, and the fields that
only some candidates have follow from the type.  A result is listed under the token of its
candidate, and that is the token which was read.

## Key results

- `Body.jsonFields_inj` / `Candidate.toJson_inj`: candidates are told apart by their fields
- `Parser.raw_of_parseMany`: the candidate of a token is listed under the token
- `Report.json_inj`: results of parsing with the same report are the same
-/

namespace UtilityClass

/-! ## Candidates -/

/-- Parts are told apart by how they are written: plain ones as strings, bracketed ones as
    objects. -/
theorem Part.toJson_injective : Function.Injective Part.toJson := by
  intro part part' h
  cases part with
  | plain t =>
    cases part' with
    | plain t' => rw [Json.string.inj h]
    | bracketed inner' => exact nomatch h
  | bracketed inner =>
    cases part' with
    | plain t' => exact nomatch h
    | bracketed inner' =>
      have hvalue := (List.cons.inj (List.cons.inj (Json.object.inj h)).2).1
      rw [Json.string.inj (Prod.mk.inj hvalue).2]

/-- A prefix is told apart from others however the empty one is written. -/
theorem EmptyPrefix.toJson_inj {empty empty' : EmptyPrefix} {p p' : Text}
    -- the empty prefix is written in a way of its own, which no other prefix has
    (h : empty.toJson p = empty'.toJson p') : p = p' := by
  unfold toJson at h
  split at h
  · split at h
    · rfl
    · exact nomatch h
  · split at h
    · exact nomatch h
    · exact Json.string.inj h

/-- Bodies of one kind and name are told apart by their further fields. -/
theorem Body.jsonFields_inj [ColorReader] {b b' : Body} (hkind : b.kind = b'.kind)
    (hname : b.name = b'.name)
    (h : b.jsonFields = b'.jsonFields) : b = b' := by
  -- the kinds are told apart by their words
  have hwords : "utility".toList ≠ "property".toList ∧ "utility".toList ≠ "custom".toList ∧
      "property".toList ≠ "custom".toList := by decide
  obtain ⟨hup, huc, hpc⟩ := hwords
  cases b with
  | utility name =>
    cases b' with
    | utility name' => rw [show name = name' from hname]
    | property _ _ => exact absurd hkind hup
    | custom _ _ _ => exact absurd hkind huc
  | property name value =>
    cases b' with
    | utility _ => exact absurd hkind.symm hup
    | property name' value' =>
      have hvalue := (Prod.mk.inj (List.cons.inj h).1).2
      rw [show name = name' from hname, Json.string.inj hvalue]
    | custom _ _ _ => exact absurd hkind hpc
  | custom name value tag =>
    cases b' with
    | utility _ => exact absurd hkind.symm huc
    | property _ _ => exact absurd hkind.symm hpc
    | custom name' value' tag' =>
      have hvalue := (Prod.mk.inj (List.cons.inj h).1).2
      have htag := (Prod.mk.inj (List.cons.inj (List.cons.inj h).2).1).2
      rw [show name = name' from hname, Json.string.inj hvalue, Json.string.inj htag]

/-- Candidates are told apart by their fields. -/
theorem Candidate.toJson_inj [ColorReader] {empty empty' : EmptyPrefix} {c c' : Candidate}
    (h : c.toJson empty = c'.toJson empty') : c = c' := by
  obtain ⟨hfields, hbody⟩ := List.append_inj (Json.object.inj h) rfl
  -- field by field; the parts, by their own injectivity
  simp only [jsonFields, List.cons.injEq, Prod.mk.injEq, Json.string.injEq, Json.bool.injEq,
    Json.array.injEq, true_and, and_true] at hfields
  obtain ⟨hraw, hkind, hname, hclass, himportant, hnegative, hvariants, hmodifiers⟩ := hfields
  have hparts := Part.toJson_injective.list_map
  cases c
  cases c'
  congr
  · exact EmptyPrefix.toJson_inj hclass
  · exact hparts hvariants
  · exact hparts hmodifiers
  · exact Body.jsonFields_inj hkind hname hbody

/-! ## Results -/

/-- The candidate of a token is listed under the token. -/
theorem Parser.raw_of_parseMany {ε : Type} {p : Parser ε} {tokens : List Text} {results : Cache}
    (h : (p.parseMany .empty tokens).1.answer = .ok results) {raw : Text} {c : Candidate}
    (hmem : (raw, some c) ∈ results.entries) : c.raw = raw := by
  -- an entry is an answer to its token, and an answer carries the token that was read
  rw [parseMany_answer] at h
  have hanswered := answered_of_enterAnswers (.empty _) h
  have hanswer := hanswered raw (some c) (Ledger.find?_of_mem_entries hmem)
  rw [answerThrough_of_unknown (Ledger.find?_empty raw)] at hanswer
  obtain ⟨source, hsource, body, -, rfl⟩ := Candidate.parse_eq_some_iff.1 hanswer
  obtain ⟨-, flagged, -, -, rfl⟩ := Candidate.ofToken_eq_ok_iff.1 hsource
  rfl

namespace Report

/-- A result that is listed under the token of its candidate is told apart from others. -/
theorem entryJson_inj [ColorReader] {empty empty' : EmptyPrefix} {e e' : Text × Option Candidate}
    (hraw : ∀ c, e.2 = some c → c.raw = e.1) (hraw' : ∀ c, e'.2 = some c → c.raw = e'.1)
    (h : entryJson empty e = entryJson empty' e') : e = e' := by
  obtain ⟨raw, answer⟩ := e
  obtain ⟨raw', answer'⟩ := e'
  cases answer with
  | none =>
    cases answer' with
    | none =>
      have hfield := (List.cons.inj (Json.object.inj h)).1
      rw [Json.string.inj (Prod.mk.inj hfield).2]
    | some c' =>
      -- a rejection has no type
      have hfield := (List.cons.inj (List.cons.inj (Json.object.inj h)).2).1
      exact nomatch (Prod.mk.inj hfield).2
  | some c =>
    cases answer' with
    | none =>
      have hfield := (List.cons.inj (List.cons.inj (Json.object.inj h)).2).1
      exact nomatch (Prod.mk.inj hfield).2
    | some c' =>
      obtain rfl : c = c' := Candidate.toJson_inj h
      rw [← show c.raw = raw from hraw c rfl, ← show c.raw = raw' from hraw' c rfl]

/-- Results that are listed under the tokens of their candidates are told apart by their entries. -/
theorem map_entryJson_inj [ColorReader] {empty empty' : EmptyPrefix}
    {es es' : List (Text × Option Candidate)}
    (hraw : ∀ e ∈ es, ∀ c, e.2 = some c → c.raw = e.1)
    (hraw' : ∀ e ∈ es', ∀ c, e.2 = some c → c.raw = e.1)
    (h : es.map (entryJson empty) = es'.map (entryJson empty')) : es = es' := by
  -- entry by entry, for results of equal length, as the lists of the report are
  induction es generalizing es' with
  | nil => exact (List.map_eq_nil_iff.1 h.symm).symm
  | cons e more ih =>
    cases es' with
    | nil => exact nomatch h
    | cons e' more' =>
      obtain ⟨hfirst, hothers⟩ := List.cons.inj h
      obtain ⟨he, hmore⟩ := List.forall_mem_cons.1 hraw
      obtain ⟨he', hmore'⟩ := List.forall_mem_cons.1 hraw'
      rw [entryJson_inj he he' hfirst, ih hmore hmore' hothers]

/-- Results of parsing that have the same report are the same: the same tokens in the same order,
    each with the same candidate or rejected in both. -/
theorem json_inj [ColorReader] {config config' : Config} {tokens tokens' : List Text}
    {results results' : Cache} {empty empty' : EmptyPrefix}
    (h : (Parser.parseMany ⟨config, .standard⟩ .empty tokens).1.answer = .ok results)
    (h' : (Parser.parseMany ⟨config', .standard⟩ .empty tokens').1.answer = .ok results')
    (hjson : json empty results = json empty' results') : results = results' := by
  have hdocument : document empty results = document empty' results' :=
    Json.render_injective 0 hjson
  have hcandidates := (List.cons.inj (Json.object.inj hdocument)).1
  have hentries := Json.array.inj (Prod.mk.inj hcandidates).2
  apply Ledger.eq_of_entries_eq
  apply map_entryJson_inj _ _ hentries
  · rintro ⟨raw, answer⟩ hmem c rfl
    exact Parser.raw_of_parseMany h hmem
  · rintro ⟨raw, answer⟩ hmem c rfl
    exact Parser.raw_of_parseMany h' hmem

/-- Two configurations that differ in their separators have the same report on tokens without
    either, and so they have the same results: a candidate with a character past the basic plane, a
    property and a rejection. -/
theorem json_inj_two_separators :
    ∃ (config : Config) (tokens : List Text) (results results' : Cache),
      config.separator = "__".toList ∧ tokens.length = 3 ∧
      (Parser.parseMany ⟨.default, .standard⟩ .empty tokens).1.answer = .ok results ∧
      (Parser.parseMany ⟨config, .standard⟩ .empty tokens).1.answer = .ok results' ∧
      json .string results = json .string results' ∧ results = results' := by
  let config : Config := ⟨"__", [], false, by decide, by decide, by decide⟩
  let tokens : List Text := ["!a-['😀\"']/[é]", "[b:c]", "a-[;]"]
  let c : Candidate :=
    ⟨"!a-['😀\"']/[é]", [], true, false, [], [.bracketed "é"], .custom "a" "'😀\"'" "any"⟩
  let d : Candidate := ⟨"[b:c]", [], false, false, [], [], .property "b" "c"⟩
  let results : Cache := .ofList [(c.raw, some c), (d.raw, some d), ("a-[;]", none)]
  have h : (Parser.parseMany ⟨.default, .standard⟩ .empty tokens).1.answer = .ok results := by
    decide +kernel
  have h' : (Parser.parseMany ⟨config, .standard⟩ .empty tokens).1.answer = .ok results := by
    decide +kernel
  have hjson : json .string results = json .string results := rfl
  exact ⟨config, tokens, results, results, rfl, rfl, h, h', hjson, json_inj h h' hjson⟩

end Report

end UtilityClass
