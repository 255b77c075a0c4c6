import UtilityClass.Candidate.Token

/-!
# Candidates of tokens

## Key results

- `ofToken_eq_ok_iff`: what a token spells, stage by stage
-/

namespace UtilityClass.Candidate

/-- A token spells a candidate if it is not empty, its base carries the required prefix, and
    something is left once variants, flags and modifier are taken away. -/
theorem ofToken_eq_ok_iff {config : Config} {raw : Text} {c : Candidate} :
    ofToken config raw = .ok c ↔
      raw ≠ [] ∧ ∃ flagged,
        Flagged.ofBase? config (Segments.split config.separator raw).base = some flagged ∧
        (Modifier.split flagged.text).1 ≠ [] ∧
        c = {
          raw := raw
          classPrefix := config.classPrefix
          important := flagged.important
          negative := flagged.negative
          variants := (Segments.split config.separator raw).variants.map Part.ofSegment
          modifiers := (Modifier.split flagged.text).2
          body := Body.ofText (Modifier.split flagged.text).1 } := by
  unfold ofToken
  by_cases hraw : raw = []
  · simp [hraw]
  · rw [if_neg hraw]
    dsimp only
    cases Flagged.ofBase? config (Segments.split config.separator raw).base with
    | none => simp
    | some flagged =>
      dsimp only
      by_cases htext : (Modifier.split flagged.text).1 = []
      · simp [htext]
      · simp [htext, hraw, eq_comm (a := c)]

end UtilityClass.Candidate
