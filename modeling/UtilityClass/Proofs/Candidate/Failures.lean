import UtilityClass.Proofs.Gate
import UtilityClass.Proofs.Value.Recursion

/-!
# When a token has no answer

With the library's own judges a token is accepted or rejected, unless the value that its candidate
carries through the gate has no canonical form.

## Key results

- `parse_standard_eq_error_iff`: no answer to a token means no canonical form of its value
- `parse_standard_answers_iff`: which tokens have an answer, by the text of their values
-/

namespace UtilityClass.Candidate

/-- A token carries a value through the gate of the library's own judges. -/
def Admits (config : Config) (raw value : Text) : Prop :=
  ∃ c, ofToken config raw = .ok c ∧ c.body.value? = some value ∧ c.body.passes = true

/-- There is no answer to a token exactly if the value that it carries through the gate has no
    canonical form. -/
theorem parse_standard_eq_error_iff {config : Config} {raw : Text} :
    (∃ fault, (parse .standard config raw).answer = .error fault) ↔
      ∃ value, Admits config raw value ∧ ∃ fault, Value.canonical value = .error fault := by
  constructor
  · intro h
    obtain ⟨fault, h⟩ := h
    -- the fault is that of the verdict, and the verdict has that of the canonical form
    obtain ⟨c, htoken, hverdict⟩ := parse_eq_error_iff.1 h
    obtain ⟨hpasses, value, hvalue, hcan⟩ := Body.verdict_standard_eq_error_iff.1 hverdict
    exact ⟨value, ⟨c, htoken, hvalue, hpasses⟩, fault, hcan⟩
  · intro h
    obtain ⟨value, ⟨c, htoken, hvalue, hpasses⟩, fault, hcan⟩ := h
    have hverdict := Body.verdict_standard_eq_error_iff.2 ⟨hpasses, value, hvalue, hcan⟩
    exact ⟨fault, parse_eq_error_iff.2 ⟨c, htoken, hverdict⟩⟩

/-- A token is accepted or rejected unless it carries a value with an unclosed `url(` through the
    gate, one that does not begin like a custom property.  There is no answer exactly if the
    recursion for the canonical form of the value does not end. -/
theorem parse_standard_answers_iff (config : Config) (raw : Text) :
    ((∃ result, (parse .standard config raw).answer = .ok result) ↔
      ∀ value, Admits config raw value → ['-', '-'] <+: value ∨ ¬ Value.Unclosed value) ∧
    ((∃ fault, (parse .standard config raw).answer = .error fault) ↔
      ∃ value, Admits config raw value ∧
        ∀ depth, Value.canonicalWithin depth true value = none) := by
  refine ⟨?_, ?_⟩
  · -- an answer is what there is when nothing fails
    have hok : (∃ result, (parse .standard config raw).answer = .ok result) ↔
        ¬ ∃ fault, (parse .standard config raw).answer = .error fault := by
      cases (parse .standard config raw).answer with
      | error fault => exact iff_of_false (fun ⟨_, h⟩ => nomatch h) fun h => h ⟨fault, rfl⟩
      | ok result => exact iff_of_true ⟨result, rfl⟩ fun ⟨_, h⟩ => nomatch h
    rw [hok, parse_standard_eq_error_iff]
    constructor
    · intro h value hvalue
      -- a fault would show in the text of the value
      apply Classical.byContradiction
      intro hbad
      rw [not_or, Classical.not_not] at hbad
      exact h ⟨value, hvalue, Value.canonical_eq_error_iff_unclosed.2 hbad⟩
    · intro h hbad
      obtain ⟨value, hvalue, hcan⟩ := hbad
      obtain ⟨hdashes, hunclosed⟩ := Value.canonical_eq_error_iff_unclosed.1 hcan
      rcases h value hvalue with h | h
      · exact hdashes h
      · exact h hunclosed
  · rw [parse_standard_eq_error_iff]
    constructor
    · intro h
      obtain ⟨value, hvalue, hcan⟩ := h
      exact ⟨value, hvalue, Value.canonical_eq_error_iff.1 hcan⟩
    · intro h
      obtain ⟨value, hvalue, hdepth⟩ := h
      exact ⟨value, hvalue, Value.canonical_eq_error_iff.2 hdepth⟩

/-- A quoted `url(` passes the gate and then has no canonical form. -/
theorem parse_standard_quoted_lead :
    Admits .default "a-['url(']" "'url('" ∧
      ∃ fault, (parse .standard .default "a-['url(']").answer = .error fault := by
  have hadmits : Admits .default "a-['url(']" "'url('" :=
    ⟨⟨"a-['url(']", [], false, false, [], [], .custom "a" "'url('" "any"⟩, by decide +kernel, rfl,
      by decide⟩
  refine ⟨hadmits, (parse_standard_answers_iff .default "a-['url(']").2.2 ⟨"'url('", hadmits, ?_⟩⟩
  exact Value.canonical_eq_error_iff.1 ⟨.unclosedAddress, by decide +kernel⟩

end UtilityClass.Candidate
