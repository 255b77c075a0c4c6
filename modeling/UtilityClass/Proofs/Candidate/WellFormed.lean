import UtilityClass.Proofs.Candidate.Body
import UtilityClass.Proofs.Candidate.Flagged
import UtilityClass.Proofs.Candidate.Modifier
import UtilityClass.Proofs.Candidate.Token
import UtilityClass.Proofs.Gate
import UtilityClass.Proofs.Value.Blank

/-!
# Accepted candidates

An accepted candidate has the token and the class prefix that it was read with, and at most one
modifier, which is not empty.  Its name and its value may be empty, and only in one way each.  The
text behind the flags is checked before the name is cut out of it: behind a third dash, a value in
brackets has no name in front of it.  The value is checked before it is brought into canonical form:
one that is written with underscores and blanks alone has nothing left then.

## Key results

- `Modifier.wellFormed_of_mem_split`: what is split off is a modifier that can be written
- `Body.name_eq_nil_iff`: which bodies have no name
- `parse_standard_wellFormed`: what holds of every accepted candidate
-/

namespace UtilityClass

/-! ## Modifiers -/

namespace Modifier

/-- What is split off is a modifier that can be written. -/
theorem wellFormed_of_mem_split {t : Text} {part : Part} (h : part ∈ (split t).2) :
    WellFormed part := by
  -- over the text: a modifier is split off at the first slash that has one behind it
  induction t with
  | nil => exact nomatch h
  | cons c rest ih =>
    rw [split] at h
    cases hbehind : behindSlash? (c :: rest) with
    | none =>
      rw [hbehind] at h
      exact ih h
    | some part' =>
      rw [hbehind] at h
      obtain rfl : part = part' := List.mem_singleton.1 h
      rw [behindSlash?] at hbehind
      split at hbehind
      · exact (ofText?_eq_some_iff.1 hbehind).1
      · cases hbehind

/-- A text begins with what stands before its modifier. -/
theorem split_fst_prefix (t : Text) : (split t).1 <+: t := by
  induction t with
  | nil => exact List.prefix_refl _
  | cons c rest ih =>
    rw [split]
    split
    · exact List.nil_prefix
    · exact List.cons_prefix_cons.2 ⟨rfl, ih⟩

end Modifier

/-! ## Names -/

namespace Body

/-- Another value leaves the name as it is. -/
theorem withValue_name (b : Body) (value : Text) : (b.withValue value).name = b.name := by
  cases b <;> rfl

/-- A body with a value takes on another one. -/
theorem withValue_value? {b : Body} {written : Text} (h : b.value? = some written) (value : Text) :
    (b.withValue value).value? = some value := by
  cases b with
  | utility name => exact nomatch h
  | property name written => rfl
  | custom name written tag => rfl

/-- A declaration begins with its bracket. -/
theorem not_spellsDeclaration_dash (rest : Text) : ¬ SpellsDeclaration ('-' :: rest) := by
  intro h
  obtain ⟨name, value, -, ht⟩ := h
  rcases ht with ht | ht <;> exact absurd (List.cons.inj ht).1 (by decide)

/-- A text that is not empty spells a body without a name exactly if it is a value in brackets
    behind a dash. -/
theorem name_eq_nil_iff {t : Text} (hne : t ≠ []) :
    (ofText t).name = [] ↔ ∃ inner, t = bracketedText [] inner := by
  constructor
  · intro h
    -- by the rule that spells the body: a declaration has a name, and a plain name is the text
    -- itself
    have hspelled := spelled_ofText t
    generalize ofText t = b at h hspelled
    cases hspelled with
    | property hdecl => exact absurd h hdecl.name_ne_nil
    | propertyLine hdecl => exact absurd h hdecl.name_ne_nil
    | @tagged name tag value _ _ _ =>
      obtain rfl : name = [] := h
      exact ⟨_, rfl⟩
    | @untagged name inner _ _ _ =>
      obtain rfl : name = [] := h
      exact ⟨_, rfl⟩
    | utility _ _ => exact absurd h hne
  · intro h
    obtain ⟨inner, rfl⟩ := h
    have hdecl : declaration? (bracketedText [] inner) = none :=
      declaration?_eq_none_iff.2 (not_spellsDeclaration_dash _)
    have hbracketed : bracketed? (bracketedText [] inner) = some ([], inner) :=
      bracketed?_eq_some_iff.2 ⟨rfl, by simp⟩
    rw [ofText, hdecl, hbracketed]
    rfl

end Body

/-! ## Candidates -/

namespace Candidate

/-- The text that a body is read from: what stands in the base of a token behind the flags and the
    required prefix, without the modifier. -/
def bodyText? (config : Config) (raw : Text) : Option Text :=
  (Flagged.ofBase? config (Segments.split config.separator raw).base).map fun flagged =>
    (Modifier.split flagged.text).1

/-- A value that passes the gate is not empty as it is written. -/
theorem written_ne_nil {config : Config} {raw written : Text} {source : Candidate}
    (h : ofToken config raw = .ok source) (hvalue : source.body.value? = some written)
    (hpasses : source.body.passes = true) : written ≠ [] := by
  obtain ⟨-, flagged, -, -, rfl⟩ := ofToken_eq_ok_iff.1 h
  dsimp only at hvalue hpasses
  generalize (Modifier.split flagged.text).1 = text at hvalue hpasses
  -- which rule spells the body tells what its value is
  have hspelled := Body.spelled_ofText text
  generalize Body.ofText text = b at hvalue hpasses hspelled
  rintro rfl
  cases hspelled with
  | property hdecl | propertyLine hdecl => exact hdecl.value_ne_nil (Option.some.inj hvalue)
  | tagged _ _ _ | untagged _ _ _ =>
    -- of bracketed values the empty one is not valid
    obtain rfl : _ = [] := Option.some.inj hvalue
    have hvalid : Value.isValid [] = true := hpasses
    exact absurd hvalid (by decide)
  | utility _ _ => exact nomatch hvalue

/-- An accepted candidate keeps the token, which is not empty, and the class prefix, and it has at
    most one modifier, which is not empty.  It has no name exactly if behind the flags there is a
    dash right in front of the value in brackets; then a dash is among the flags too.  A value was
    not empty as it was written, and it is empty now exactly if it was written with underscores and
    blanks alone. -/
theorem parse_standard_wellFormed {config : Config} {raw : Text} {c : Candidate}
    (h : (parse .standard config raw).answer = .ok (some c)) :
    c.raw = raw ∧ raw ≠ [] ∧ c.classPrefix = config.classPrefix ∧
    c.modifiers.length ≤ 1 ∧ (∀ part ∈ c.modifiers, Modifier.WellFormed part) ∧
    (c.body.name = [] ↔
      ∃ inner, bodyText? config raw = some (Body.bracketedText [] inner)) ∧
    (c.body.name = [] → c.negative = true) ∧
    ∃ source, ofToken config raw = .ok source ∧
      ∀ value, c.body.value? = some value →
        ∃ written, source.body.value? = some written ∧ written ≠ [] ∧
          (value = [] ↔ Value.SpellsBlanks written) := by
  obtain ⟨source, htoken, body, hverdict, rfl⟩ := parse_eq_some_iff.1 h
  obtain ⟨hpasses, hbody⟩ := Body.verdict_standard_eq_some_iff.1 hverdict
  -- the gate rewrites the value alone
  have hname : body.name = source.body.name := by
    rcases hbody with ⟨-, rfl⟩ | ⟨written, value, -, -, rfl⟩
    · rfl
    · exact Body.withValue_name _ _
  have hvalues : ∀ value, body.value? = some value →
      ∃ written, source.body.value? = some written ∧ written ≠ [] ∧
        (value = [] ↔ Value.SpellsBlanks written) := by
    intro value hvalue
    rcases hbody with ⟨hnone, rfl⟩ | ⟨written, value', hwritten, hcan, rfl⟩
    · exact nomatch hnone.symm.trans hvalue
    · rw [Body.withValue_value? hwritten] at hvalue
      obtain rfl : value' = value := Option.some.inj hvalue
      refine ⟨written, hwritten, written_ne_nil htoken hwritten hpasses, ?_⟩
      rw [← Value.canonical_eq_nil_iff, hcan, Except.ok.injEq]
  -- from here on the candidate is taken apart into the stages of reading its token
  have hsource := htoken
  obtain ⟨hraw, flagged, hbase, htext, rfl⟩ := ofToken_eq_ok_iff.1 hsource
  dsimp only at hname ⊢
  have hnameless : body.name = [] ↔
      ∃ inner, (Modifier.split flagged.text).1 = Body.bracketedText [] inner := by
    rw [hname, Body.name_eq_nil_iff htext]
  have hbodyText : bodyText? config raw = some (Modifier.split flagged.text).1 := by
    rw [bodyText?, hbase, Option.map_some]
  refine ⟨rfl, hraw, rfl, Modifier.length_split_le _, fun part => Modifier.wellFormed_of_mem_split,
    ?_, ?_, _, htoken, hvalues⟩
  · rw [hnameless, hbodyText]
    simp only [Option.some.injEq]
  · rw [hnameless]
    -- a body without a name begins with a dash, which is left there by a flag that is a dash
    rintro ⟨inner, hinner⟩
    apply Flagged.negative_of_head?_text hbase
    -- what is left behind the flags begins with what stands before its modifier
    obtain ⟨rest, hrest⟩ := Modifier.split_fst_prefix flagged.text
    rw [← hrest, hinner]
    rfl

/-- Behind two dashes that are flags the third one stands for a name, and the name is empty. -/
theorem parse_standard_wellFormed_nameless :
    ∃ c, (parse .standard .default "---[_]/m").answer = .ok (some c) ∧
      c.modifiers = [.plain "m"] ∧ c.negative = true ∧ c.body.name = [] ∧
      c.body.value? = some [] ∧ Value.SpellsBlanks "_" := by
  let c : Candidate :=
    ⟨"---[_]/m", [], false, true, [], [.plain "m"], .custom [] [] "any"⟩
  have h : (parse .standard .default "---[_]/m").answer = .ok (some c) := by decide +kernel
  have hwellFormed := parse_standard_wellFormed h
  obtain ⟨-, -, -, -, -, hname, hnegative, source, hsource, hvalue⟩ := hwellFormed
  have hnameless : c.body.name = [] := hname.2 ⟨"_", by decide +kernel⟩
  obtain ⟨written, hwritten, -, hblank⟩ := hvalue [] rfl
  have htoken : ofToken .default "---[_]/m" = .ok { c with body := .custom [] "_" "any" } := by
    decide +kernel
  obtain rfl : _ = source := Except.ok.inj (htoken.symm.trans hsource)
  obtain rfl : "_".toList = written := Option.some.inj hwritten
  exact ⟨c, h, rfl, hnegative hnameless, hnameless, rfl, hblank.1 rfl⟩

end Candidate

end UtilityClass
