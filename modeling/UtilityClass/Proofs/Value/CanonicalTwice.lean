import UtilityClass.Proofs.Value.Calls
import UtilityClass.Proofs.Value.Ends
import UtilityClass.Proofs.Value.Respacing

/-!
# Canonical forms of canonical forms

Without escapes and addresses, a canonical form is its own canonical form unless it is or was a lone
custom property.  What trimming takes from a text with spaced operators is at most the space behind
an operator at its end, and spacing puts that back.  But a lone custom property is wrapped as it is
written, and in the call its underscores are read; and a custom property that is alone only after
trimming is wrapped the second time.

## Key results

- `Spacer.run_written_operator`: the space behind an operator at the end is put back
- `spaceOperators_strip`: spacing a trimmed text with spaced operators changes nothing but that
- `canonical_again_iff`: which values have a canonical form that is its own canonical form
-/

namespace UtilityClass.Value

/-! ## Words that are kept -/

namespace Spacer

variable {s : Spacer} {w t : Text}

/-- A character that is neither a space nor an operator is copied behind the space that is due. -/
theorem exists_step_eq_copy (h : s.Tidy) {c : Char} (hspace : c ≠ ' ') (hoperator : c ∉ operators)
    (k : Text) : ∃ next, s.step c k = (s.gap.flush ++ [c], next) ∧ next.gap = .none := by
  rcases step_kinds h.settled c k with ⟨next, hstep, -, hgap⟩ | ⟨-, hop, -⟩ | ⟨-, hc, -⟩
  · exact ⟨next, hstep, hgap⟩
  · exact absurd (mem_operators_of_isOperator hop) hoperator
  · exact absurd hc hspace

/-- A word without spaces and operators is copied. -/
theorem written_word (h : s.Tidy) (hgap : s.gap = .none) (hw : ∀ c ∈ w, c ≠ ' ' ∧ c ∉ operators)
    (k : Text) : s.written k w = w := by
  -- by induction on the word: behind each of its characters nothing is due, as before it
  induction w generalizing s with
  | nil => rfl
  | cons c rest ih =>
    obtain ⟨⟨hspace, hoperator⟩, hrest⟩ := List.forall_mem_cons.1 hw
    obtain ⟨next, hstep, hnone⟩ := exists_step_eq_copy h hspace hoperator (rest ++ k)
    rw [written_cons hstep, hgap, ih (h.next hstep) hnone hrest]
    rfl

/-- A word without spaces and operators that stands in a text stands in what is written. -/
theorem infix_written (h : s.Tidy) (hw : ∀ c ∈ w, c ≠ ' ' ∧ c ∉ operators) (hin : w <:+: t)
    (k : Text) : w <:+: s.written k t := by
  obtain ⟨left, right, rfl⟩ := hin
  cases w with
  | nil => exact List.nil_infix
  | cons c rest =>
    obtain ⟨⟨hspace, hoperator⟩, hrest⟩ := List.forall_mem_cons.1 hw
    -- its first character comes behind what is due there, and the others behind that
    have hleft := h.after (c :: rest ++ (right ++ k)) left
    obtain ⟨next, hstep, hnone⟩ := exists_step_eq_copy hleft hspace hoperator (rest ++ (right ++ k))
    -- nothing is due behind the first character, so the rest of the word is written as it is
    have hword := written_word (hleft.next hstep) hnone hrest (right ++ k)
    rw [List.append_assoc, written_append, written_append, List.append_assoc, written_cons hstep,
      hword]
    have hfront : ∀ gap : Text, c :: rest <:+: gap ++ [c] ++ rest := by
      intro gap
      rw [List.append_assoc]
      exact (List.suffix_append gap ([c] ++ rest)).isInfix
    exact ((hfront _).trans (List.prefix_append _ _).isInfix).trans (List.suffix_append _ _).isInfix

end Spacer

/-- A text calls a math function if the name of one stands in it with a parenthesis behind. -/
theorem callsMath_iff {t : Text} :
    callsMath t = true ↔ ∃ f ∈ mathFunctions, f ++ ['('] <:+: t := by
  simp only [callsMath, List.any_eq_true, Text.occurs_iff]

/-- The call of a math function holds neither spaces nor operators. -/
theorem ne_of_mem_call {f : Text} (hf : f ∈ mathFunctions) :
    ∀ c ∈ f ++ ['('], c ≠ ' ' ∧ c ∉ operators := by
  have hall : (mathFunctions.all fun f => (f ++ ['(']).all fun c =>
      decide (c ≠ ' ' ∧ c ∉ operators)) = true := by decide
  intro c hc
  exact of_decide_eq_true (List.all_eq_true.1 (List.all_eq_true.1 hall f hf) c hc)

/-- A text calls a math function if the front of it does up to an operator. -/
theorem callsMath_of_concat {t : Text} {c : Char} (hc : c ∈ operators)
    (h : callsMath (t ++ [c]) = true) : callsMath t = true := by
  obtain ⟨f, hf, hin⟩ := callsMath_iff.1 h
  -- the operator at the end is no part of the call, which then ends before it
  have hnot : c ∉ f ++ ['('] := fun hmem => (ne_of_mem_call hf c hmem).2 hc
  exact callsMath_iff.2 ⟨f, hf, (infix_concat_iff_of_not_mem hnot).1 hin⟩

/-- A text goes on calling a math function whatever is written behind it. -/
theorem callsMath_append {t : Text} (h : callsMath t = true) (u : Text) :
    callsMath (t ++ u) = true := by
  obtain ⟨f, hf, hin⟩ := callsMath_iff.1 h
  exact callsMath_iff.2 ⟨f, hf, hin.trans (List.prefix_append t u).isInfix⟩

/-- What a text calls is called by what is written of it. -/
theorem callsMath_written {t : Text} (h : callsMath t = true) {s : Spacer} (hs : s.Tidy)
    (k : Text) : callsMath (s.written k t) = true := by
  obtain ⟨f, hf, hin⟩ := callsMath_iff.1 h
  exact callsMath_iff.2 ⟨f, hf, Spacer.infix_written hs (ne_of_mem_call hf) hin k⟩

/-! ## Spacing what was trimmed -/

/-- An operator at the end is written between spaces, and spaced again where the last space is
    missing. -/
theorem Spacer.run_written_operator {front : Text} {c : Char}
    (hin : (start.after [c] front).inMath = true)
    (hop : isOperator (start.after [c] front).before c [] = true) :
    start.run (front ++ [c]) = start.written [c] front ++ [' ', c, ' '] ∧
      start.run (start.written [c] front ++ [' ', c]) =
        start.written [c] front ++ [' ', c, ' '] := by
  have hc := mem_operators_of_isOperator hop
  constructor
  -- the spacer reads the operator once more, behind the space that it wrote in front of it
  · have hstep := step_eq_space hin hop
    rw [run_append, run_eq _ [c], written_singleton hstep, after_singleton hstep]
    rfl
  · have hlooks : NextAlike [c] ((start.after [c] front).gap.operator c) :=
      (mute_cons (.inr hc) []).nextAlike (mute_operator _ hc)
    obtain ⟨u, b, hb, hu, hwritten, hafter⟩ :=
      exists_rereads tidy_start (.refl start.before) hlooks front
    have hseeing : start.seeing start.before = start := rfl
    rw [hseeing] at hwritten hafter
    -- the second spacer comes to the operator as the first one did
    rw [isOperator_congr hb (.refl [])] at hop
    obtain ⟨d, hreads⟩ := exists_reads_operator (s := (start.after [c] front).seeing b) hin hop
    have hgap : ((start.after [c] front).seeing b).gap = (start.after [c] front).gap := rfl
    rw [hgap] at hreads
    obtain ⟨hspaced, hbehind⟩ := hreads [] mute_nil
    have htext : start.written [c] front ++ [' ', c] =
        u ++ (start.after [c] front).gap.operator c := by
      rw [← flush_append_operator (start.after [c] front).gap, ← List.append_assoc, ← hu]
      rfl
    rw [htext, run_append, hwritten, hafter, run_eq, hspaced, hbehind]
    rfl

/-- A text that ends in an operator comes out with a space behind it, and does so again if that
    space is taken away. -/
theorem EndsInOperator.exists_spaceOperators_eq {t : Text} (h : EndsInOperator t) :
    ∃ x c, t.getLast? = some c ∧ spaceOperators t = x ++ [' ', c] ++ [' '] ∧
      spaceOperators (x ++ [' ', c]) = spaceOperators t := by
  obtain ⟨hmath, front, c, rfl, hin, hop⟩ := h
  rw [← Spacer.before_after_start [c] front] at hop
  obtain ⟨hrun, hagain⟩ := Spacer.run_written_operator hin hop
  have hwritten : callsMath (Spacer.start.written [c] front) = true :=
    callsMath_written (callsMath_of_concat (mem_operators_of_isOperator hop) hmath)
      Spacer.tidy_start [c]
  refine ⟨Spacer.start.written [c] front, c, List.getLast?_concat, ?_, ?_⟩
  · rw [spaceOperators, if_pos hmath, hrun, List.append_assoc]
    rfl
  · rw [spaceOperators, if_pos (callsMath_append hwritten _), hagain, spaceOperators, if_pos hmath,
      hrun]

/-- A trimmed text with spaced operators is its own text with spaced operators, but for the space
    that was trimmed. -/
theorem spaceOperators_strip {t : Text} (hhead : t.head?.any Text.isBlank = false)
    (hlast : t.getLast?.any Text.isBlank = false) :
    spaceOperators (Text.strip (spaceOperators t)) = spaceOperators t := by
  -- without a math function nothing is spaced, and only the ends are trimmed, which are no blanks
  by_cases hmath : callsMath t = true
  · have hfront : (spaceOperators t).head?.any Text.isBlank = false := by
      rwa [head?_spaceOperators]
    by_cases hoperator : EndsInOperator t
    · -- the space behind the operator is all that is trimmed
      obtain ⟨x, c, hc, hout, hagain⟩ := hoperator.exists_spaceOperators_eq
      have hspace : Text.isBlank ' ' = true := by decide
      have hx : (x ++ [' ', c]).head?.any Text.isBlank = false := by
        rw [hout, List.head?_append] at hfront
        cases hhead' : (x ++ [' ', c]).head? with
        | none => rfl
        | some d => rwa [hhead'] at hfront
      have hend : (x ++ [' ', c]).getLast?.any Text.isBlank = false := by
        rw [hc] at hlast
        rw [List.getLast?_append]
        exact hlast
      rw [hout, Text.strip_concat_of_blank hspace, Text.strip_eq_self hx hend, hagain, hout]
    · -- nothing is trimmed
      have hend : (spaceOperators t).getLast?.any Text.isBlank = false := by
        rw [← Bool.not_eq_true, getLast?_spaceOperators_iff, hlast]
        simp [hoperator]
      have ht : spaceOperators t = Spacer.start.run t := if_pos hmath
      rw [Text.strip_eq_self hfront hend, ht, spaceOperators_run]
  · have ht : spaceOperators t = t := if_neg hmath
    rw [ht, Text.strip_eq_self hhead hlast, ht]

/-! ## Underscores -/

/-- A text without underscores is read as it is. -/
theorem spaced_eq_self {t : Text} (h : '_' ∉ t) : spaced t = t := by
  -- the three equations of `spaced`: the end, an escaped underscore, any other character
  induction t using spaced.induct with
  | case1 => rfl
  | case2 rest ih => exact absurd (by simp) h
  | case3 c rest hpair ih =>
    obtain ⟨hc, hrest⟩ := not_or.1 (mt List.mem_cons.2 h)
    rw [spaced, if_neg (Ne.symm hc), ih hrest]
    exact hpair

/-- Without escapes, no underscore is left. -/
theorem not_mem_spaced {t : Text} (h : '\\' ∉ t) : '_' ∉ spaced t := by
  induction t using spaced.induct with
  | case1 => exact List.not_mem_nil
  | case2 rest ih => exact absurd List.mem_cons_self h
  | case3 c rest hpair ih =>
    have hrest := ih (fun hmem => h (List.mem_cons_of_mem c hmem))
    rw [spaced, List.mem_cons, not_or]
    · refine ⟨?_, hrest⟩
      split
      · decide
      · next hc => exact Ne.symm hc
    · exact hpair

/-! ## Two dashes -/

/-- Two dashes at the front stay there when underscores are read and blanks are trimmed. -/
theorem dashes_prefix_strip_spaced {t : Text} (h : ['-', '-'] <+: t) :
    ['-', '-'] <+: Text.strip (spaced t) := by
  have hdash : Text.isBlank '-' = false := by decide
  obtain ⟨rest, rfl⟩ := h
  apply Text.prefix_strip (List.forall_mem_cons.2 ⟨hdash, List.forall_mem_singleton.2 hdash⟩)
  rw [spaced_append (.inl (by decide))]
  exact List.prefix_append _ _

/-- Spacing operators neither moves nor makes two dashes at the front. -/
theorem dashes_prefix_spaceOperators_iff {t : Text} :
    ['-', '-'] <+: spaceOperators t ↔ ['-', '-'] <+: t := by
  rw [spaceOperators]
  split
  · constructor
    · exact Spacer.prefix_of_prefix_run Spacer.settled_start rfl (by decide)
    · intro h
      obtain ⟨rest, rfl⟩ := h
      exact ⟨_, rfl⟩
  · exact Iff.rfl

/-! ## Canonical forms of canonical forms -/

/-- A lone custom property as it is wrapped. -/
def wrapped (t : Text) : Text := "var(".toList ++ t ++ [')']

/-- Wrapping a text makes no address in it. -/
theorem not_lead_wrapped {t : Text} (h : ¬ addressLead <:+: t) : ¬ addressLead <:+: wrapped t := by
  have htext : wrapped t = 'v' :: 'a' :: 'r' :: '(' :: (t ++ [')']) := rfl
  -- an address begins with neither of the two characters that the wrapping shares with it
  have hr : ¬ addressLead <+: 'r' :: '(' :: (t ++ [')']) :=
    fun hfront => absurd (List.cons_prefix_cons.1 hfront).1 (by decide)
  have hopen : ¬ addressLead <+: '(' :: (t ++ [')']) :=
    fun hfront => absurd (List.cons_prefix_cons.1 hfront).1 (by decide)
  rw [htext, infix_cons_iff_of_not_mem (by decide), infix_cons_iff_of_not_mem (by decide),
    List.infix_cons_iff, or_iff_right hr, List.infix_cons_iff, or_iff_right hopen,
    infix_concat_iff_of_not_mem (by decide)]
  exact h

/-- A wrapped custom property has no blanks at its ends. -/
theorem strip_wrapped (t : Text) : Text.strip (wrapped t) = wrapped t := by
  have hends : Text.isBlank 'v' = false ∧ Text.isBlank ')' = false := by decide
  refine Text.strip_eq_self hends.1 ?_
  rw [wrapped, List.getLast?_concat]
  exact hends.2

/-- A wrapped custom property without escapes and addresses is its own canonical form exactly if it
    has no underscores and its operators are spaced. -/
theorem canonical_wrapped_iff {t : Text} (hescape : '\\' ∉ t) (hlead : ¬ addressLead <:+: t) :
    canonical (wrapped t) = .ok (wrapped t) ↔
      '_' ∉ t ∧ spaceOperators (wrapped t) = wrapped t := by
  have hdashes : ¬ ['-', '-'] <+: wrapped t :=
    fun hfront => absurd (List.cons_prefix_cons.1 hfront).1 (by decide)
  have hunderscore : '_' ∈ wrapped t ↔ '_' ∈ t := by simp [wrapped]
  have hescape' : '\\' ∉ wrapped t := by simpa [wrapped] using hescape
  rw [canonical_of_not_lead hdashes (not_lead_wrapped hlead), Except.ok.injEq]
  constructor
  · intro h
    have hnone : '_' ∉ wrapped t := by
      -- it would be read as a space, and come out as none
      intro hmem
      rw [← h] at hmem
      have hstrip := mem_of_mem_spaceOperators (by decide) hmem
      exact not_mem_spaced hescape' ((Text.strip_infix _).subset hstrip)
    rw [spaced_eq_self hnone, strip_wrapped] at h
    exact ⟨mt hunderscore.2 hnone, h⟩
  · intro h
    rw [spaced_eq_self (mt hunderscore.1 h.1), strip_wrapped]
    exact h.2

/-- Spacing the operators of a trimmed text without underscores, addresses and two dashes at the
    front gives a text that is its own canonical form. -/
theorem canonical_spaceOperators {t : Text} (hhead : t.head?.any Text.isBlank = false)
    (hlast : t.getLast?.any Text.isBlank = false) (hunderscore : '_' ∉ t)
    (hlead : ¬ addressLead <:+: t) (hdashes : ¬ ['-', '-'] <+: t) :
    canonical (spaceOperators t) = .ok (spaceOperators t) := by
  have hnone : '_' ∉ spaceOperators t := mt (mem_of_mem_spaceOperators (by decide)) hunderscore
  have hlead' := mt lead_infix_of_infix_spaceOperators hlead
  rw [canonical_of_not_lead (mt dashes_prefix_spaceOperators_iff.1 hdashes) hlead',
    spaced_eq_self hnone, spaceOperators_strip hhead hlast]

/-- The canonical form of a value without escapes and addresses is its own canonical form exactly if
    the value with its underscores read does not begin with two dashes when it is trimmed, or is a
    lone custom property without underscores whose operators are spaced when it is wrapped. -/
theorem canonical_again_iff {t : Text} (hescape : '\\' ∉ t) (hlead : ¬ addressLead <:+: t) :
    ∃ r, canonical t = .ok r ∧
      (canonical r = .ok r ↔
        ¬ ['-', '-'] <+: Text.strip (spaced t) ∨
          ['-', '-'] <+: t ∧ '_' ∉ t ∧ spaceOperators (wrapped t) = wrapped t) := by
  -- values that are wrapped at once are settled by `canonical_wrapped_iff`
  by_cases hdashes : ['-', '-'] <+: t
  · refine ⟨wrapped t, canonical_of_dashes hdashes, ?_⟩
    have hstrip := dashes_prefix_strip_spaced hdashes
    rw [canonical_wrapped_iff hescape hlead, or_iff_right (not_not_intro hstrip),
      and_iff_right hdashes]
  · refine ⟨_, canonical_of_not_lead hdashes hlead, ?_⟩
    rw [or_iff_left fun h => hdashes h.1]
    constructor
    · -- two dashes at the front are wrapped, which makes the text longer
      intro hsame hfront
      have hwrapped := canonical_of_dashes (dashes_prefix_spaceOperators_iff.2 hfront)
      have hlength := congrArg List.length (Except.ok.inj (hwrapped.symm.trans hsame))
      simp at hlength
      omega
    · intro hfront
      have hlead' : ¬ addressLead <:+: Text.strip (spaced t) := by
        intro hin
        exact hlead (lead_infix_of_infix_spaced (hin.trans (Text.strip_infix _)))
      refine canonical_spaceOperators (Text.head?_strip _) (Text.getLast?_strip _) ?_ hlead' hfront
      exact fun hmem => not_mem_spaced hescape ((Text.strip_infix _).subset hmem)

/-- The space behind an operator at the end is trimmed the second time, and put back. -/
theorem canonical_again_iff_operator_at_end :
    ∃ t r : Text, t = "_max(1_+2)_calc(3px-" ∧ '\\' ∉ t ∧ ¬ addressLead <:+: t ∧
      r = "max(1 + 2) calc(3px - ".toList ∧ canonical t = .ok r ∧ canonical r = .ok r := by
  have hescape : '\\' ∉ "_max(1_+2)_calc(3px-".toList := by decide +kernel
  have hlead : ¬ addressLead <:+: "_max(1_+2)_calc(3px-".toList := by decide +kernel
  have hfirst : canonical "_max(1_+2)_calc(3px-" = .ok "max(1 + 2) calc(3px - ".toList := by
    decide +kernel
  have hfront : ¬ ['-', '-'] <+: Text.strip (spaced "_max(1_+2)_calc(3px-") := by decide +kernel
  obtain ⟨r, hr, hagain⟩ := canonical_again_iff hescape hlead
  exact ⟨_, r, rfl, hescape, hlead, Except.ok.inj (hr.symm.trans hfirst), hr,
    hagain.2 (.inl hfront)⟩

/-- A lone custom property is wrapped as it is written, and its underscores are read when what came
    out is brought into canonical form. -/
theorem canonical_again_custom_property_underscore :
    ∃ t r : Text, t = "--a_b" ∧ '\\' ∉ t ∧ ¬ addressLead <:+: t ∧ r = "var(--a_b)" ∧
      canonical t = .ok r ∧ canonical r = .ok "var(--a b)" ∧ canonical r ≠ .ok r :=
  ⟨_, _, rfl, by decide +kernel, by decide +kernel, rfl, by decide +kernel, by decide +kernel,
    by decide +kernel⟩

end UtilityClass.Value
