import UtilityClass.Proofs.Candidate.Body
import UtilityClass.Proofs.Candidate.Token
import UtilityClass.Proofs.Gate
import UtilityClass.Proofs.Property

/-!
# Declarations behind the gate

A declaration passes the gate by its name alone or else by the full check of name and value.  The
two ways do not agree: a name that opens like a property name lets any written value through.

## Key results

- `parse_standard_eq_property_iff`: which declarations are let through
- `parse_standard_property_checked`: what the full check says of them
-/

namespace UtilityClass.Candidate

/-- A declaration that is read from a token has a name of name characters and a value without
    blanks, and neither is empty. -/
theorem isDeclaration_of_ofToken {config : Config} {raw name written : Text} {c : Candidate}
    (h : ofToken config raw = .ok c) (hbody : c.body = .property name written) :
    Body.IsDeclaration name written := by
  obtain ⟨-, flagged, -, -, rfl⟩ := ofToken_eq_ok_iff.1 h
  -- of the rules for bodies two spell a declaration, one with a line feed behind it
  generalize (Modifier.split flagged.text).1 = text at hbody
  cases Body.ofText_eq_iff.1 hbody with
  | property hdecl => exact hdecl
  | propertyLine hdecl => exact hdecl

/-- A declaration is let through if its name opens like a property name or the full check accepts
    it, and the whole does not look like an address.  It then carries the canonical value. -/
theorem parse_standard_eq_property_iff {config : Config} {raw name value : Text} {c : Candidate}
    (hbody : c.body = .property name value) :
    (parse .standard config raw).answer = .ok (some c) ↔
      ∃ source written, ofToken config raw = .ok source ∧ source.body = .property name written ∧
        (Property.opensName name = true ∨ Property.isDeclaration name written = true) ∧
        Uri.isUriLike (name ++ ':' :: written) = false ∧
        Value.canonical written = .ok value ∧ c = { source with body := .property name value } := by
  constructor
  · intro h
    obtain ⟨source, htoken, body, hverdict, rfl⟩ := parse_eq_some_iff.1 h
    dsimp only at hbody
    subst hbody
    obtain ⟨hpasses, hvalue⟩ := Body.verdict_standard_eq_some_iff.1 hverdict
    -- only a declaration comes out as one, under its own name
    cases hsource : source.body with
    | utility other => simp [hsource, Body.value?] at hvalue
    | custom other written tag => simp [hsource, Body.value?, Body.withValue] at hvalue
    | property other written =>
      simp only [hsource, Body.value?, Body.withValue, Option.some.injEq, reduceCtorEq, false_and,
        false_or, Body.property.injEq] at hvalue
      obtain ⟨_, _, rfl, hcan, rfl, rfl⟩ := hvalue
      simp only [hsource, Body.passes, Bool.and_eq_true, Bool.or_eq_true, Bool.not_eq_true']
        at hpasses
      exact ⟨source, written, htoken, hsource, hpasses.1, hpasses.2, hcan, rfl⟩
  · intro h
    obtain ⟨source, written, htoken, hsource, hname, huri, hcan, rfl⟩ := h
    have hpasses : source.body.passes = true := by
      rw [hsource]
      simpa [Body.passes, huri] using hname
    have hverdict : source.body.verdict .standard = .ok (some (.property name value)) :=
      Body.verdict_standard_eq_some_iff.2
        ⟨hpasses, .inr ⟨written, value, by rw [hsource]; rfl, hcan, by rw [hsource]; rfl⟩⟩
    exact parse_eq_some_iff.2 ⟨source, htoken, _, hverdict, rfl⟩

/-- What the full check says of a declaration that was let through, by its value as it is written.
    A name that does not open like a property name has passed the check.  A name that does was not
    checked: it fails if it is no identifier, or if the value is not valid or holds a brace. -/
theorem parse_standard_property_checked {config : Config} {raw name value : Text} {c : Candidate}
    (h : (parse .standard config raw).answer = .ok (some c))
    (hbody : c.body = .property name value) :
    ∃ source written, ofToken config raw = .ok source ∧ source.body = .property name written ∧
      (Property.opensName name = false →
        Property.isDeclaration name written = true ∧ '\x7b' ∉ written ∧ '\x7d' ∉ written ∧
          Value.isValid written = true) ∧
      (Property.opensName name = true →
        (Property.isDeclaration name written = true ↔
          ¬ Property.DashOnly name ∧ '\x7b' ∉ written ∧ '\x7d' ∉ written ∧
            Value.isValid written = true)) := by
  obtain ⟨source, written, htoken, hsource, hname, -, -, -⟩ :=
    (parse_standard_eq_property_iff hbody).1 h
  have hdecl := isDeclaration_of_ofToken htoken hsource
  refine ⟨source, written, htoken, hsource, ?_, ?_⟩
  · intro hopens
    -- the name opened no way around the check
    have hchecked : Property.isDeclaration name written = true := by
      rcases hname with hname | hname
      · rw [hopens] at hname
        exact nomatch hname
      · exact hname
    exact ⟨hchecked, (Property.isDeclaration_iff.1 hchecked).2⟩
  · intro hopens
    exact Property.isDeclaration_iff_of_opensName hopens hdecl.name_chars

/-- A name with a capital letter is let through by the full check. -/
theorem parse_standard_property_checked_capital :
    (parse .standard .default "[Color:rgb(1,2)]").answer = .ok (some
      ⟨"[Color:rgb(1,2)]", [], false, false, [], [], .property "Color" "rgb(1,2)"⟩) ∧
    ∃ written, Property.isDeclaration "Color" written = true ∧ Value.isValid written = true := by
  have h : (parse .standard .default "[Color:rgb(1,2)]").answer = .ok (some
      ⟨"[Color:rgb(1,2)]", [], false, false, [], [], .property "Color" "rgb(1,2)"⟩) := by
    decide +kernel
  obtain ⟨_, written, -, -, hchecked, -⟩ := parse_standard_property_checked h rfl
  have hvalue := hchecked (by decide)
  exact ⟨h, written, hvalue.1, hvalue.2.2.2⟩

/-- A name that opens like a property name lets a semicolon through, and the full check would not
    have: the value ends the declaration that it stands in. -/
theorem parse_standard_property_unchecked :
    (parse .standard .default "[a:b;c]").answer = .ok (some
      ⟨"[a:b;c]", [], false, false, [], [], .property "a" "b;c"⟩) ∧
    (ofToken .default "[a:b;c]").map Candidate.body = .ok (.property "a" "b;c") ∧
    Property.isDeclaration "a" "b;c" = false := by
  exact ⟨by decide +kernel, by decide +kernel, by decide +kernel⟩

end UtilityClass.Candidate
