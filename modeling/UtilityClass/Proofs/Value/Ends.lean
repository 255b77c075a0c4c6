import Mathlib.Data.List.Induction
import UtilityClass.Proofs.Text.Blank
import UtilityClass.Proofs.Value.Lookahead
import UtilityClass.Proofs.Value.Verbatim
import UtilityClass.Value.Syntax

/-!
# The ends of canonical values

A value without addresses is trimmed before its operators are spaced, and a value with addresses is
not trimmed at all.  So a canonical form may begin or end in a blank: around addresses wherever the
value does, once its underscores are read, and at the end also behind an operator that the trimmed
value ends in, inside of a math function.

## Key results

- `head?_spaceOperators`: spacing operators keeps the first character
- `getLast?_spaceOperators_iff`: when a text with spaced operators ends in a blank
- `canonical_blank_ends_iff`: when a canonical form begins or ends in a blank
-/

namespace UtilityClass.Value

/-! ## Spaced operators -/

namespace Spacer

variable {s : Spacer} {c : Char} {k : Text}

/-- What a spacer has read is the text behind what it had read before. -/
theorem before_after (h : s.Tidy) (k t : Text) : (s.after k t).before = t.reverse ++ s.before := by
  induction t generalizing s with
  | nil => rfl
  | cons c rest ih =>
    -- each of the three kinds of steps takes the character
    have hbefore : (s.step c (rest ++ k)).2.before = c :: s.before := by
      rcases step_kinds h.settled c (rest ++ k) with
        ⟨next, hstep, hnext, -⟩ | ⟨-, -, hstep⟩ | ⟨-, -, hstep⟩
      · rw [hstep, hnext]
      · rw [hstep]
        rfl
      · rw [hstep]
        rfl
    have hnext : (s.step c (rest ++ k)).2.Tidy := h.next rfl
    rw [after, ih hnext, hbefore, List.reverse_cons, List.append_assoc, List.singleton_append]

/-- From the start, what a spacer has read is the text. -/
theorem before_after_start (k t : Text) : (start.after k t).before = t.reverse :=
  (before_after tidy_start k t).trans (List.append_nil _)

/-- The space behind an operator was the last that was written. -/
theorem exists_written_eq_concat (h : s.Tidy) (hgap : s.gap ≠ .written) {t : Text}
    (hwritten : (s.after k t).gap = .written) : ∃ x, s.written k t = x ++ [' '] := by
  -- from the end of the text: only an operator, or a blank behind one, leaves a written space
  induction t using List.reverseRecOn generalizing k with
  | nil => exact absurd hwritten hgap
  | append_singleton front c ih =>
    have hfront := h.after (c :: k) front
    rw [after_append, List.singleton_append] at hwritten
    rw [written_append, List.singleton_append]
    rcases step_kinds hfront.settled c k with
      ⟨next, hstep, -, hnext⟩ | ⟨-, -, hstep⟩ | ⟨-, rfl, hstep⟩
    · rw [after_singleton hstep, hnext] at hwritten
      exact nomatch hwritten
    · rw [written_singleton hstep]
      exact ⟨s.written (c :: k) front ++ [' ', c], by rw [List.append_assoc]; rfl⟩
    · -- the gap is as it was, since a space alone does not write
      rw [after_singleton hstep] at hwritten
      rw [written_singleton hstep, List.append_nil]
      apply ih
      by_cases hnone : (s.after (' ' :: k) front).gap = .none
      · rw [if_pos hnone] at hwritten
        exact nomatch hwritten
      · rw [if_neg hnone] at hwritten
        exact hwritten

/-- What is written of a text ends in a blank exactly if its last character is one, or an operator
    inside of a math function. -/
theorem getLast?_run_concat_iff (front : Text) (c : Char) :
    (start.run (front ++ [c])).getLast?.any Text.isBlank = true ↔
      Text.isBlank c = true ∨
        (start.after [c] front).inMath = true ∧ isOperator front.reverse c [] = true := by
  have hfront := tidy_start.after [c] front
  have hspace : Text.isBlank ' ' = true := by decide
  rw [run_append, run, run, ← before_after_start [c] front]
  rcases step_kinds hfront.settled c [] with
    ⟨next, hstep, -, hgap⟩ | ⟨hin, hop, hstep⟩ | ⟨hin, rfl, hstep⟩
  · -- a character that is copied is the last one
    have hnone : ¬ ((start.after [c] front).inMath = true ∧
        isOperator (start.after [c] front).before c [] = true) := by
      intro h
      have hnext : Gap.written = next.gap := congrArg (fun out => out.2.gap)
        ((step_eq_space h.1 h.2).symm.trans hstep)
      cases hnext.trans hgap
    rw [hstep, hgap, or_iff_left hnone]
    simp [Gap.flush]
  -- an operator leaves a space behind it
  · rw [hstep]
    exact iff_of_true (by simp [Gap.flush, paused, hspace]) (.inr ⟨hin, hop⟩)
  · -- a space is due, or was written behind an operator
    rw [hstep]
    refine iff_of_true ?_ (.inl hspace)
    cases hgap : (start.after [' '] front).gap with
    | none | due => simp [Gap.flush, paused, hspace]
    | written =>
      obtain ⟨x, hx⟩ := exists_written_eq_concat tidy_start (by decide) hgap
      simp [Gap.flush, paused, hspace, hx]

end Spacer

/-- Spacing operators keeps the first character. -/
theorem head?_spaceOperators (t : Text) : (spaceOperators t).head? = t.head? := by
  rw [spaceOperators]
  split
  · cases t with
    | nil => rfl
    | cons c rest =>
      rw [Spacer.run]
      -- at the start no math function is open, so the character is copied
      rcases Spacer.step_kinds Spacer.settled_start c rest with
        ⟨next, hstep, -⟩ | ⟨hin, -⟩ | ⟨hin, -⟩
      · rw [hstep]
        rfl
      · exact absurd hin Bool.false_ne_true
      · exact absurd hin Bool.false_ne_true
  · rfl

/-- A text that ends in an operator inside of a math function. -/
def EndsInOperator (t : Text) : Prop :=
  callsMath t = true ∧ ∃ front c, t = front ++ [c] ∧
    (Spacer.start.after [c] front).inMath = true ∧ isOperator front.reverse c [] = true

/-- A text ends in an operator by its last character. -/
theorem endsInOperator_concat_iff {front : Text} {c : Char} :
    EndsInOperator (front ++ [c]) ↔ callsMath (front ++ [c]) = true ∧
      (Spacer.start.after [c] front).inMath = true ∧ isOperator front.reverse c [] = true := by
  constructor
  · intro h
    obtain ⟨hmath, front', c', heq, hin, hop⟩ := h
    obtain ⟨rfl, hc⟩ := List.append_inj' heq rfl
    obtain rfl : c = c' := by simpa using hc
    exact ⟨hmath, hin, hop⟩
  · intro h
    exact ⟨h.1, front, c, rfl, h.2⟩

/-- A text with spaced operators ends in a blank exactly if the text does or ends in an operator
    inside of a math function. -/
theorem getLast?_spaceOperators_iff (t : Text) :
    (spaceOperators t).getLast?.any Text.isBlank = true ↔
      t.getLast?.any Text.isBlank = true ∨ EndsInOperator t := by
  by_cases hmath : callsMath t = true
  -- the last character is split off, and what is in front of it decides whether it is an operator
  · cases t using List.reverseRecOn with
    | nil => exact absurd hmath (by decide)
    | append_singleton front c _ =>
      rw [endsInOperator_concat_iff, and_iff_right hmath, spaceOperators, if_pos hmath,
        Spacer.getLast?_run_concat_iff, List.getLast?_concat, Option.any_some]
  · have hnone : ¬ EndsInOperator t := fun h => hmath h.1
    rw [spaceOperators, if_neg hmath, or_iff_left hnone]

/-! ## Reading underscores -/

/-- A text is read for its underscores part by part, unless it is cut behind the backslash of an
    escaped one. -/
theorem spaced_append {t u : Text} (h : t.getLast? ≠ some '\\' ∨ u.head? ≠ some '_') :
    spaced (t ++ u) = spaced t ++ spaced u := by
  have hrest : ∀ {c : Char} {rest : Text}, (c :: rest).getLast? ≠ some '\\' ∨ u.head? ≠ some '_' →
      rest.getLast? ≠ some '\\' ∨ u.head? ≠ some '_' := by
    intro c rest h
    refine h.imp_left fun hne hlast => hne ?_
    rw [List.getLast?_cons, hlast]
    rfl
  -- on the text as its underscores are read; an escaped underscore takes two characters
  induction t using spaced.induct with
  | case1 => rfl
  | case2 rest ih =>
    rw [List.cons_append, List.cons_append, spaced, ih (hrest (hrest h)), spaced, List.cons_append]
  | case3 c rest hpair ih =>
    -- a backslash at the cut has no underscore behind it in `u` either
    have hpair' : ∀ more, c = '\\' → rest ++ u = '_' :: more → False := by
      intro more hc hu
      cases rest with
      | nil =>
        rw [List.nil_append] at hu
        rw [hc, hu] at h
        exact h.elim (fun hne => hne rfl) (fun hne => hne rfl)
      | cons d others =>
        rw [List.cons_append] at hu
        exact hpair others hc (by rw [(List.cons.inj hu).1])
    rw [List.cons_append, spaced, ih (hrest h), spaced, List.cons_append]
    · exact hpair
    · exact hpair'

/-! ## The last part of a value -/

/-- A value is cut behind its last address. -/
theorem exists_pieces_eq (t : Text) :
    pieces t = [.gap t] ∨
      ∃ front a g, pieces t = front ++ [.address (a ++ [')']), .gap g] := by
  -- address by address; the gap behind the last one is what is left
  fun_induction pieces t with
  | case1 t hnone => exact .inl rfl
  | case2 t front address after hcut ih =>
    obtain ⟨x, rfl, -⟩ := address_of_cutAddress? hcut
    refine .inr ?_
    rcases ih with hlast | ⟨more, a, g, hmore⟩
    · exact ⟨[.gap front], addressLead ++ x, after, by rw [hlast]; rfl⟩
    · exact ⟨.gap front :: .address (addressLead ++ x ++ [')']) :: more, a, g, by rw [hmore]; rfl⟩

/-- What becomes the end of the canonical form: what stands behind the last address, or, in a value
    without a `url(`, the trimmed value; underscores are read. -/
def lastPart (t : Text) : Text :=
  if Text.occurs addressLead t then (pieces t).getLast?.elim [] fun piece => spaced piece.text
  else Text.strip (spaced t)

/-! ## Canonical forms -/

/-- A lone custom property is wrapped in a call. -/
theorem canonical_of_dashes {t : Text} (h : ['-', '-'] <+: t) :
    canonical t = .ok ("var(".toList ++ t ++ [')']) := by
  rw [canonical, if_pos (List.isPrefixOf_iff_prefix.2 h)]

/-- A value without addresses is trimmed, and its operators are spaced. -/
theorem canonical_of_not_lead {t : Text} (hdashes : ¬ ['-', '-'] <+: t)
    (hlead : ¬ addressLead <:+: t) :
    canonical t = .ok (spaceOperators (Text.strip (spaced t))) := by
  rw [canonical, if_neg (by rwa [List.isPrefixOf_iff_prefix]), if_neg (by rwa [Text.occurs_iff])]

/-- A value with a canonical form holds no `url(` outside of its addresses, and the form is the
    addresses among the gaps rewritten. -/
theorem eq_of_canonical_of_lead {t r : Text} (hdashes : ¬ ['-', '-'] <+: t)
    (hlead : addressLead <:+: t) (h : canonical t = .ok r) :
    r = ((pieces t).map (Piece.mapGap writtenGap)).flatMap Piece.text ∧ pieces t ≠ [.gap t] := by
  -- a gap with a `url(` would have no end, and so no canonical form
  have hgaps : ∀ gap, .gap gap ∈ pieces t → ¬ addressLead <:+: gap := by
    intro gap hgap hin
    obtain ⟨fault, hfault⟩ := canonical_eq_error_iff_unclosed.2
      ⟨hdashes, (exists_gap_iff_unclosed t).1 ⟨gap, hgap, hin⟩⟩
    exact nomatch h.symm.trans hfault
  refine ⟨Except.ok.inj (h.symm.trans (canonical_eq_ok_of_lead hdashes hlead hgaps)), ?_⟩
  intro hpieces
  exact hgaps t (by rw [hpieces]; exact List.mem_cons_self) hlead

/-- With addresses, the canonical form begins as the value does with its underscores read. -/
theorem head?_canonical_of_lead {t r : Text} (hdashes : ¬ ['-', '-'] <+: t)
    (hlead : addressLead <:+: t) (h : canonical t = .ok r) : r.head? = (spaced t).head? := by
  obtain ⟨hr, hpieces⟩ := eq_of_canonical_of_lead hdashes hlead h
  cases hcut : cutAddress? t with
  | none => exact absurd (pieces_of_cutAddress?_eq_none hcut) hpieces
  | some found =>
    obtain ⟨front, address, after⟩ := found
    obtain ⟨x, rfl, -⟩ := address_of_cutAddress? hcut
    -- the `u` of the first address stands behind the same text before and after
    let k : Text := "rl(".toList ++ x ++ [')'] ++ after
    have ht : t = front ++ 'u' :: k := by
      rw [eq_of_cutAddress? hcut, List.append_assoc]
      rfl
    have hspaced : spaced t = spaced front ++ 'u' :: spaced k := by
      have hfront : ('u' :: k).head? ≠ some '_' := by
        rw [List.head?_cons]
        decide
      have hu : spaced ('u' :: k) = 'u' :: spaced k := spaced_append (t := ['u']) (.inl (by decide))
      rw [ht, spaced_append (.inr hfront), hu]
    obtain ⟨y, hy⟩ : ∃ y, r = writtenGap front ++ 'u' :: y := by
      rw [hr, pieces_of_cutAddress?_eq_some hcut]
      exact ⟨_, rfl⟩
    rw [hy, hspaced, List.head?_append, List.head?_append, writtenGap, head?_spaceOperators]
    rfl

/-- A text that ends in a blank behind a parenthesis does so in what follows the parenthesis. -/
theorem getLast?_any_append_close (t u : Text) :
    (t ++ [')'] ++ u).getLast?.any Text.isBlank = u.getLast?.any Text.isBlank := by
  have hclose : Text.isBlank ')' = false := by decide
  rw [List.getLast?_append, List.getLast?_concat]
  cases u.getLast? with
  | none => exact hclose
  | some d => rfl

/-- With addresses, the canonical form ends in a blank exactly if the value does with its
    underscores read, or if what stands behind the last address ends in an operator inside of a math
    function. -/
theorem getLast?_canonical_of_lead {t r : Text} (hdashes : ¬ ['-', '-'] <+: t)
    (hlead : addressLead <:+: t) (h : canonical t = .ok r) :
    r.getLast?.any Text.isBlank = true ↔
      (spaced t).getLast?.any Text.isBlank = true ∨ EndsInOperator (lastPart t) := by
  obtain ⟨hr, hpieces⟩ := eq_of_canonical_of_lead hdashes hlead h
  obtain hsingle | ⟨front, a, g, hcut⟩ := exists_pieces_eq t
  · exact absurd hsingle hpieces
  -- the last address ends in a parenthesis, which is no blank, so only the gap behind it counts
  have hjoin := join_pieces t
  rw [hcut] at hr hjoin
  have hlast : lastPart t = spaced g := by
    rw [lastPart, if_pos (Text.occurs_iff.2 hlead), hcut]
    simp [Piece.text]
  have htext : t = front.flatMap Piece.text ++ a ++ [')'] ++ g := by
    rw [← hjoin]
    simp [Piece.text]
  have hspaced : spaced t = spaced (front.flatMap Piece.text ++ a) ++ [')'] ++ spaced g := by
    rw [htext, spaced_append (.inl (by rw [List.getLast?_concat]; decide)),
      spaced_append (.inr (by decide))]
    rfl
  have hwritten : r = (front.map (Piece.mapGap writtenGap)).flatMap Piece.text ++ a ++ [')'] ++
      writtenGap g := by
    rw [hr]
    simp [Piece.text, Piece.mapGap]
  rw [hwritten, hspaced, hlast, getLast?_any_append_close, getLast?_any_append_close, writtenGap]
  exact getLast?_spaceOperators_iff (spaced g)

/-- The canonical form of a value begins in a blank exactly if the value is no lone custom property,
    holds a `url(`, and begins in a blank once its underscores are read.  It ends in a blank exactly
    if the value is no lone custom property, and either holds a `url(` and ends in a blank once its
    underscores are read, or its last part ends in an operator inside of a math function. -/
theorem canonical_blank_ends_iff {t r : Text} (h : canonical t = .ok r) :
    (r.head?.any Text.isBlank = true ↔
      ¬ ['-', '-'] <+: t ∧ addressLead <:+: t ∧ (spaced t).head?.any Text.isBlank = true) ∧
    (r.getLast?.any Text.isBlank = true ↔
      ¬ ['-', '-'] <+: t ∧
        (addressLead <:+: t ∧ (spaced t).getLast?.any Text.isBlank = true ∨
          EndsInOperator (lastPart t))) := by
  by_cases hdashes : ['-', '-'] <+: t
  · -- a custom property is wrapped in a call
    obtain rfl := Except.ok.inj (h.symm.trans (canonical_of_dashes hdashes))
    have hends : Text.isBlank 'v' = false ∧ Text.isBlank ')' = false := by decide
    refine ⟨iff_of_false ?_ fun h => h.1 hdashes, iff_of_false ?_ fun h => h.1 hdashes⟩
    · exact Bool.eq_false_iff.1 hends.1
    · rw [List.getLast?_concat]
      exact Bool.eq_false_iff.1 hends.2
  -- with addresses nothing is trimmed, and without them both ends are
  · by_cases hlead : addressLead <:+: t
    · rw [head?_canonical_of_lead hdashes hlead h, and_iff_right hdashes, and_iff_right hlead,
        and_iff_right hdashes, and_iff_right hlead]
      exact ⟨Iff.rfl, getLast?_canonical_of_lead hdashes hlead h⟩
    · obtain rfl := Except.ok.inj (h.symm.trans (canonical_of_not_lead hdashes hlead))
      have hlast : lastPart t = Text.strip (spaced t) := if_neg (by rwa [Text.occurs_iff])
      rw [head?_spaceOperators, Text.head?_strip, getLast?_spaceOperators_iff, Text.getLast?_strip,
        hlast]
      simp [hdashes, hlead]

/-- Two valid values that are not trimmed: a space in front of an address, and an operator behind a
    parenthesis that is quoted, so that it opens a call for the spacer alone. -/
theorem canonical_blank_ends_iff_address_and_quote :
    (∃ t r : Text, t = "_url(a)" ∧ isValid t = true ∧ canonical t = .ok r ∧ r = " url(a)".toList ∧
      r.head?.any Text.isBlank = true) ∧
    (∃ t r : Text, t = "'_calc('*" ∧ isValid t = true ∧ canonical t = .ok r ∧
      r = "' calc(' * ".toList ∧ r.getLast?.any Text.isBlank = true) := by
  constructor
  · have hcan : canonical "_url(a)" = .ok " url(a)" := by decide +kernel
    have hblank : (spaced "_url(a)").head?.any Text.isBlank = true := by decide +kernel
    refine ⟨_, _, rfl, by decide, hcan, rfl, ?_⟩
    exact (canonical_blank_ends_iff hcan).1.2 ⟨by decide, by decide +kernel, hblank⟩
  · have hcan : canonical "'_calc('*" = .ok "' calc(' * " := by decide +kernel
    have hlast : lastPart "'_calc('*" = "' calc('".toList ++ ['*'] := by decide +kernel
    have hoperator : EndsInOperator (lastPart "'_calc('*") := by
      rw [hlast, endsInOperator_concat_iff]
      decide +kernel
    refine ⟨_, _, rfl, by decide, hcan, rfl, ?_⟩
    exact (canonical_blank_ends_iff hcan).2.2 ⟨by decide, .inr hoperator⟩

end UtilityClass.Value
