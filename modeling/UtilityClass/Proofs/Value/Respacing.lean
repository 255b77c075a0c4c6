import UtilityClass.Proofs.Value.Lookahead

/-!
# Spacing a spaced text

A spacer that reads what another one wrote goes along with it: it has the same parentheses and names
in mind, and sees the same operators.  For what the first one wrote differs from what it read by
spaces around operators alone, and those are not seen: an operator is seen behind its own space as
behind the operand, and nothing but a space follows it.

## Key results

- `Spacer.exists_rereads`: the second spacer goes along with the first one
- `Spacer.run_run`: it writes what it reads
- `spaceOperators_spaceOperators`: so spacing operators twice is spacing them once
-/

namespace UtilityClass.Value

variable {b k k' : Text} {c : Char}

/-- What is left to be read of a spaced operator, without the space behind it, once the space that
    is due was read. -/
def Gap.operator (gap : Gap) (c : Char) : Text := if gap = .due then [c] else [' ', c]

namespace Spacer

variable {s : Spacer}

/-! ## What is written first -/

/-- Where no space is kept back, what is written looks like what is read. -/
theorem nextAlike_written (h : s.Tidy) (hgap : s.gap = .none) (hk : NextAlike k k') (t : Text) :
    NextAlike (t ++ k) (s.written k t ++ (s.after k t).gap.flush ++ k') := by
  cases t with
  | nil =>
    rw [written, after, hgap]
    exact hk
  | cons c rest =>
    -- the kinds of steps: the first character is copied, or it is spaced, or put off
    rcases step_kinds h.settled c (rest ++ k) with
      ⟨next, hstep, -⟩ | ⟨-, hop, hstep⟩ | ⟨-, rfl, hstep⟩
    · rw [written_cons hstep, hgap]
      exact nextAlike_of_head?_eq rfl
    · rw [written_cons hstep]
      have hc := mem_operators_of_isOperator hop
      exact (mute_cons (.inr hc) _).nextAlike (mute_cons (.inl rfl) _)
    · -- the space is due then
      rw [hgap, if_pos rfl] at hstep
      obtain ⟨more, hmore⟩ := written_of_due (h.next hstep).settled rfl k rest
      rw [written_cons hstep, after_cons hstep, List.nil_append, hmore]
      exact (mute_cons (.inl rfl) _).nextAlike (mute_cons (.inl rfl) _)

/-! ## Reading what was written -/

/-- The space that is due and what is left of a spaced operator are the operator behind one
    space. -/
theorem flush_append_operator (gap : Gap) (c : Char) : gap.flush ++ gap.operator c = [' ', c] := by
  cases gap <;> rfl

/-- What is left of a spaced operator begins with a space or the operator, which no check looks
    at. -/
theorem mute_operator (gap : Gap) (hc : c ∈ operators) : Mute (gap.operator c) := by
  cases gap with
  | due => exact mute_cons (.inr hc) []
  | none | written => exact mute_cons (.inl rfl) [c]

/-- A spaced operator is read as an operator, and written as it is. -/
theorem exists_reads_operator (hin : s.inMath = true) (hop : isOperator s.before c k = true) :
    ∃ d, ∀ k', Mute k' → s.written k' (s.gap.operator c) = [' ', c, ' '] ∧
      s.after k' (s.gap.operator c) = s.paused (c :: d) .written := by
  -- if a space was due, it stands in front already, and else it is read first
  by_cases hdue : s.gap = .due
  · refine ⟨s.before, fun k' hk' => ?_⟩
    have hstep := step_eq_space hin (isOperator_of_mute hop hk')
    rw [Gap.operator, if_pos hdue]
    exact ⟨written_singleton hstep, after_singleton hstep⟩
  · refine ⟨' ' :: s.before, fun k' hk' => ?_⟩
    have hspace := step_space hin (c :: k')
    have hop' : isOperator (' ' :: s.before) c k' = true := by
      rw [isOperator_cons_of_blank (by decide)]
      exact isOperator_of_mute hop hk'
    have hstep := step_eq_space
      (s := s.paused (' ' :: s.before) (if s.gap = .none then .due else s.gap)) hin hop'
    rw [Gap.operator, if_neg hdue, written_cons (t := [c]) hspace, after_cons (t := [c]) hspace]
    exact ⟨written_singleton hstep, after_singleton hstep⟩

/-- A spacer in the place of `s` that has read `b` reads `u` as `s` reads `t`: `u` is what `s`
    writes, but for the spaces that are due at its ends, and it is written as `t` is.  What follows
    is `k` for `s` and `k'` for the other one, which has read `b'` then. -/
structure Rereads (s : Spacer) (b k k' t u b' : Text) : Prop where
  flush_append_eq : s.gap.flush ++ u = s.written k t ++ (s.after k t).gap.flush
  written_eq : (s.seeing b).written k' u = s.written k t
  after_eq : (s.seeing b).after k' u = (s.after k t).seeing b'

/-- Texts are read part by part. -/
theorem Rereads.append {t t' u u' b' b'' : Text} (h : s.Rereads b (t' ++ k) (u' ++ k') t u b')
    (h' : (s.after (t' ++ k) t).Rereads b' k k' t' u' b'') :
    s.Rereads b k k' (t ++ t') (u ++ u') b'' where
  flush_append_eq := by
    rw [written_append, after_append, ← List.append_assoc, h.flush_append_eq, List.append_assoc,
      h'.flush_append_eq, List.append_assoc]
  written_eq := by rw [written_append, written_append, h.written_eq, h.after_eq, h'.written_eq]
  after_eq := by rw [after_append, after_append, h.after_eq, h'.after_eq]

/-- A character that is copied is read as it was. -/
theorem rereads_copy {next : Spacer} (hstep : s.step c k = (s.gap.flush ++ [c], next))
    (hgap : next.gap = .none) (hop : isOperator s.before c k = isOperator b c k') :
    -- field by field, by the one step that both spacers make
    s.Rereads b k k' [c] [c] (c :: b) where
  flush_append_eq := by
    rw [written_singleton hstep, after_singleton hstep, hgap, Gap.flush, List.append_nil]
  written_eq := by rw [written_singleton (step_seeing hstep hop), written_singleton hstep]
  after_eq := by rw [after_singleton (step_seeing hstep hop), after_singleton hstep]

/-- An operator is one behind its own space, and the space behind it is written already. -/
theorem exists_rereads_operator (hb : SeenAlike s.before b) (hin : s.inMath = true)
    (hop : isOperator s.before c k = true) :
    ∃ d, ∀ k', s.Rereads b k k' [c] (s.gap.operator c ++ [' ']) (' ' :: c :: d) := by
  have hstep := step_eq_space hin hop
  have hop' : isOperator b c [' '] = true := by
    rw [← isOperator_congr hb (.refl _)]
    exact isOperator_of_mute hop (mute_cons (.inl rfl) [])
  obtain ⟨d, hreads⟩ := exists_reads_operator (s := s.seeing b) hin hop'
  refine ⟨d, fun k' => ?_⟩
  obtain ⟨hfront, hbehind⟩ := hreads (' ' :: k') (mute_cons (.inl rfl) _)
  have hgap : (s.seeing b).gap = s.gap := rfl
  rw [hgap] at hfront hbehind
  have hspace : ((s.seeing b).paused (c :: d) .written).step ' ' k' =
      ([], (s.paused (c :: s.before) .written).seeing (' ' :: c :: d)) :=
    step_space (s := (s.seeing b).paused (c :: d) .written) hin k'
  constructor
  · rw [written_singleton hstep, after_singleton hstep, ← List.append_assoc,
      flush_append_operator]
    rfl
  -- what is due in front, the operator and the space behind it are written as by the first spacer
  · rw [written_append, List.singleton_append, hfront, hbehind, written_singleton hspace,
      written_singleton hstep, List.append_nil]
  · rw [after_append, List.singleton_append, hbehind, after_singleton hspace,
      after_singleton hstep]

/-- A space that is due now is read as one. -/
theorem rereads_space (hin : s.inMath = true) (hgap : s.gap = .none) (k k' : Text) :
    s.Rereads b k k' [' '] [' '] (' ' :: b) := by
  have hstep := step_space hin k
  have hop : isOperator s.before ' ' k = isOperator b ' ' k' := by
    rw [isOperator_space, isOperator_space]
  have hstep' := step_seeing hstep hop
  constructor
  · rw [written_singleton hstep, after_singleton hstep, hgap]
    rfl
  · rw [written_singleton hstep', written_singleton hstep]
  · rw [after_singleton hstep', after_singleton hstep]

/-- A space that was due or written before is not written again. -/
theorem rereads_no_space (h : s.Tidy) (hin : s.inMath = true) (hgap : s.gap ≠ .none)
    (k k' : Text) : s.Rereads b k k' [' '] [] b := by
  have hstep := step_space hin k
  rw [if_neg hgap] at hstep
  constructor
  · rw [written_singleton hstep, after_singleton hstep, List.append_nil]
    rfl
  · rw [written_singleton hstep, written]
  · -- no name was begun
    rw [after_singleton hstep, after, seeing, h.name_eq hgap]
    rfl

/-- What a step writes can be read again, if from behind a character that is copied what follows
    looks as it did. -/
theorem exists_rereads_singleton (h : s.Tidy) (hb : SeenAlike s.before b) (c : Char) (k : Text) :
    ∃ u b', SeenAlike (s.after k [c]).before b' ∧
      ∀ k', ((s.after k [c]).gap = .none → NextAlike k k') → s.Rereads b k k' [c] u b' := by
  -- one lemma per kind of step; for a copied character the text behind it decides as well
  rcases step_kinds h.settled c k with
    ⟨next, hstep, hbefore, hgap⟩ | ⟨hin, hop, hstep⟩ | ⟨hin, rfl, hstep⟩
  all_goals rw [after_singleton hstep]
  · refine ⟨[c], c :: b, by rw [hbefore]; exact hb.cons c, fun k' hk => ?_⟩
    exact rereads_copy hstep hgap (isOperator_congr hb (hk hgap))
  · obtain ⟨d, hreads⟩ := exists_rereads_operator hb hin hop
    have hc := mem_operators_of_isOperator hop
    exact ⟨_, _, seenAlike_operator hc s.before d, fun k' _ => hreads k'⟩
  · by_cases hgap : s.gap = .none
    · exact ⟨_, _, hb.cons ' ', fun k' _ => rereads_space hin hgap k k'⟩
    · exact ⟨_, _, hb.cons_space (h.digit hgap), fun k' _ => rereads_no_space h hin hgap k k'⟩

/-- What a spacer writes can be read again. -/
theorem exists_rereads (h : s.Tidy) (hb : SeenAlike s.before b) (hk : NextAlike k k') (t : Text) :
    ∃ u b', SeenAlike (s.after k t).before b' ∧ s.Rereads b k k' t u b' := by
  -- over the text, for all states and all that the second spacer has read so far
  induction t generalizing s b with
  | nil => exact ⟨[], b, hb, List.append_nil _, rfl, rfl⟩
  | cons c rest ih =>
    obtain ⟨v, b₁, hb₁, hreads⟩ := exists_rereads_singleton h hb c (rest ++ k)
    have hnext := h.after (rest ++ k) [c]
    obtain ⟨u, b', hb', hrest⟩ := ih hnext hb₁
    refine ⟨v ++ u, b', hb', (hreads (u ++ k') fun hgap => ?_).append hrest⟩
    -- a copied character is followed by what is written of the rest, and by no space that is due
    have hlooks := nextAlike_written hnext hgap hk rest
    rwa [← hrest.flush_append_eq, hgap] at hlooks

/-- What was written of a text is written again as it is. -/
theorem run_run (t : Text) : start.run (start.run t) = start.run t := by
  obtain ⟨u, b', -, hreads⟩ := exists_rereads tidy_start (.refl start.before) (.refl []) t
  have hseeing : start.seeing start.before = start := rfl
  obtain ⟨hu, hwritten, hafter⟩ := hreads
  rw [hseeing] at hwritten hafter
  have htext : start.run t = u := by rw [run_eq, ← hu]; rfl
  calc start.run (start.run t) = start.written [] u ++ (start.after [] u).gap.flush := by
        rw [htext, run_eq]
    _ = start.written [] t ++ (start.after [] t).gap.flush := by
        rw [hwritten, hafter]
        rfl
    _ = start.run t := (run_eq start t).symm

end Spacer

/-- A text with spaced operators stays as it is, whether or not it still calls a math function. -/
theorem spaceOperators_run (t : Text) :
    spaceOperators (Spacer.start.run t) = Spacer.start.run t := by
  rw [spaceOperators]
  split
  · exact Spacer.run_run t
  · rfl

/-- Spacing operators twice is spacing them once. -/
theorem spaceOperators_spaceOperators (t : Text) :
    spaceOperators (spaceOperators t) = spaceOperators t := by
  by_cases hmath : callsMath t = true
  · have ht : spaceOperators t = Spacer.start.run t := if_pos hmath
    rw [ht, spaceOperators_run]
  · have ht : spaceOperators t = t := if_neg hmath
    rw [ht, ht]

end UtilityClass.Value
