import UtilityClass.Proofs.Candidate.Flagged
import UtilityClass.Proofs.Candidate.Segments
import UtilityClass.Proofs.Gate

/-!
# Variants are transparent

Writing a closed segment and a separator in front of a token adds one variant to the candidate
that the token spells, and changes nothing else about how the token is read and judged.

## Key results

- `ofToken_append_of_closed`: reading a token with one more variant in front
- `parse_closed_append`: reading and judging a token with one more variant in front
-/

namespace UtilityClass

namespace Candidate

/-- A candidate of another token, with one more variant in front. -/
def withVariant (raw : Text) (part : Part) (c : Candidate) : Candidate :=
  { c with raw := raw, variants := part :: c.variants }

variable (config : Config) {segment : Text}

/-- A token with a closed segment in front spells the same candidate under one more variant. -/
theorem ofToken_append_of_closed (h : Segments.Closed config.separator segment) {raw : Text}
    (hraw : raw ≠ []) :
    ofToken config (segment ++ config.separator ++ raw) =
      (ofToken config raw).map
        (withVariant (segment ++ config.separator ++ raw) (Part.ofSegment segment)) := by
  have hne : segment ++ config.separator ++ raw ≠ [] := by simp [hraw]
  unfold ofToken
  -- splitting goes on behind the segment, and no later stage looks at the variants
  rw [if_neg hne, if_neg hraw, Segments.split_append_of_closed config h]
  dsimp only
  cases Flagged.ofBase? config (Segments.split config.separator raw).base with
  | none => rfl
  | some flagged =>
    dsimp only
    split
    · rfl
    · rfl

/-- Variants alone spell no candidate. -/
theorem ofToken_closed_eq_error (h : Segments.Closed config.separator segment) :
    ∃ reason, ofToken config (segment ++ config.separator) = .error reason := by
  have hne : segment ++ config.separator ≠ [] := by simp [config.separator_ne_nil]
  -- the rest behind the separator is empty, and is its own base
  have hsplit := Segments.split_append_of_closed config h []
  have hbase : Segments.split config.separator [] = ⟨[], []⟩ :=
    Segments.split_of_uncut config (Segments.not_standsAt_nil config.separator_ne_nil 0)
  rw [List.append_nil, hbase] at hsplit
  unfold ofToken
  rw [if_neg hne, hsplit]
  dsimp only
  cases hflags : Flagged.ofBase? config [] with
  | none => exact ⟨_, rfl⟩
  | some flagged =>
    -- an empty base leaves no text behind its flags and its prefix
    have htext : flagged.text = [] := by
      obtain ⟨early, late, -, -, hempty⟩ := Flagged.eq_of_ofBase? hflags
      exact (List.append_eq_nil_iff.1 hempty.symm).2
    dsimp only
    rw [htext]
    exact ⟨_, rfl⟩

variable {ε : Type} (k : Collaborators ε)

/-- Judging does not look at variants. -/
theorem judge_withVariant (raw : Text) (part : Part) (c : Candidate) :
    (judge k (c.withVariant raw part)).calls = (judge k c).calls ∧
      (judge k (c.withVariant raw part)).answer =
        (judge k c).answer.map (Option.map (withVariant raw part)) := by
  refine ⟨judge_calls_congr k rfl, ?_⟩
  rw [judge_answer, judge_answer]
  -- the body is the same, so the verdict on it is put back into two candidates
  show (c.body.verdict k).map _ = _
  cases c.body.verdict k with
  | error e => rfl
  | ok body? => cases body? <;> rfl

/-- Reading a token behind a closed segment and the separator makes the calls that reading the
    token makes, and fails, rejects or accepts as that does.  An accepted candidate has the longer
    text, one more variant, and all its other fields unchanged. -/
theorem parse_closed_append (h : Segments.Closed config.separator segment) (raw : Text) :
    (parse k config (segment ++ config.separator ++ raw)).calls = (parse k config raw).calls ∧
      (parse k config (segment ++ config.separator ++ raw)).answer =
        (parse k config raw).answer.map (Option.map fun c =>
          { c with
            raw := segment ++ config.separator ++ raw
            variants := Segments.variantOf segment :: c.variants }) := by
  rw [← Segments.ofSegment_eq_variantOf]
  by_cases hraw : raw = []
  · -- the empty token is rejected, and so are variants alone, though for another reason
    subst hraw
    obtain ⟨reason, hreason⟩ := ofToken_closed_eq_error config h
    unfold parse
    rw [List.append_nil, hreason]
    exact ⟨rfl, rfl⟩
  · unfold parse
    rw [ofToken_append_of_closed config h hraw]
    cases ofToken config raw with
    | error reason => exact ⟨rfl, rfl⟩
    | ok c => exact judge_withVariant k _ _ c

/-- A bracketed variant that holds the separator, in front of a token whose value is judged. -/
theorem parse_closed_append_bracketed :
    Segments.Closed Config.default.separator "[&:hover]" ∧
      (parse Collaborators.standard .default "[&:hover]:bg-[a_b]").calls =
        [.value "a_b", .canonical "a_b"] ∧
      (parse Collaborators.standard .default "[&:hover]:bg-[a_b]").answer =
        .ok (some ⟨"[&:hover]:bg-[a_b]", [], false, false, [.bracketed "&:hover"], [],
          .custom "bg" "a b" "any"⟩) := by
  have h : Segments.Closed Config.default.separator "[&:hover]" := by decide
  have hparse := parse_closed_append .default Collaborators.standard h "bg-[a_b]"
  have hcalls : (parse Collaborators.standard .default "bg-[a_b]").calls =
      [.value "a_b", .canonical "a_b"] := by decide +kernel
  have hanswer : (parse Collaborators.standard .default "bg-[a_b]").answer =
      .ok (some ⟨"bg-[a_b]", [], false, false, [], [], .custom "bg" "a b" "any"⟩) := by
    decide +kernel
  rw [hcalls, hanswer] at hparse
  exact ⟨h, hparse⟩

end Candidate

end UtilityClass
