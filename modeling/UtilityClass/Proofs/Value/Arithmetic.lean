import UtilityClass.Value.Arithmetic

/-!
# Steps of the spacer

A step of the spacer copies a character, spaces an operator, or takes note of a space inside of a
math function.  A space is kept back only there.

## Key results

- `mem_operators_of_isOperator`: operators are the four characters of arithmetic
- `Spacer.step_kinds`: what a step can do
- `Spacer.step_cases`: what is written at a step, and which space is due behind it
- `Spacer.settled_step`: outside of math functions no space is ever due
- `Spacer.step_eq_space` / `Spacer.step_space`: what becomes of operators and spaces inside of them
-/

namespace UtilityClass.Value

/-- The characters of arithmetic. -/
def operators : List Char := ['+', '-', '*', '/']

/-- There are four operators. -/
theorem mem_operators_iff {c : Char} : c ∈ operators ↔ c = '+' ∨ c = '-' ∨ c = '*' ∨ c = '/' := by
  simp only [operators, List.mem_cons, List.not_mem_nil, or_false]

/-- Operators neither open nor close nor separate anything. -/
theorem ne_of_mem_operators {c : Char} (hc : c ∈ operators) :
    (c ≠ '(' ∧ c ≠ ')') ∧ c ≠ ' ' ∧ c ≠ ',' := by
  rcases mem_operators_iff.1 hc with rfl | rfl | rfl | rfl <;> decide

/-- What is seen as an operator is one of the four. -/
theorem mem_operators_of_isOperator {before rest : Text} {c : Char}
    (h : isOperator before c rest = true) : c ∈ operators := by
  unfold isOperator at h
  split at h
  · next hc => rcases hc with rfl | rfl <;> decide
  · split at h
    · next hc => rcases hc with rfl | rfl <;> decide
    · exact nomatch h

/-- No space is seen as an operator. -/
theorem isOperator_space (before rest : Text) : isOperator before ' ' rest = false := by
  rw [← Bool.not_eq_true]
  exact fun h => absurd (mem_operators_of_isOperator h) (by decide)

namespace Spacer

/-- Outside of math functions no space is due, and none is written ahead. -/
def Settled (s : Spacer) : Prop := s.inMath = false → s.gap = .none

/-- At the start nothing is kept back. -/
theorem settled_start : start.Settled := fun _ => rfl

/-- The spacer in the same parentheses where no name is begun. -/
def paused (s : Spacer) (b : Text) (gap : Gap) : Spacer := ⟨s.enclosing, [], b, gap⟩

/-- A step copies a character behind the space that is due.  Inside of a math function it may also
    write an operator between spaces, or take note of a space and write nothing. -/
theorem step_kinds {s : Spacer} (h : s.Settled) (c : Char) (rest : Text) :
    (∃ next, s.step c rest = (s.gap.flush ++ [c], next) ∧ next.before = c :: s.before ∧
        next.gap = .none) ∨
      (s.inMath = true ∧ isOperator s.before c rest = true ∧
        s.step c rest = ([' ', c, ' '], s.paused (c :: s.before) .written)) ∨
      (s.inMath = true ∧ c = ' ' ∧
        s.step c rest =
          ([], s.paused (c :: s.before) (if s.gap = .none then .due else s.gap))) := by
  -- the branches of a step, in their order: parentheses, operators and spaces of a math function,
  -- and all else
  unfold step
  split
  · exact .inl ⟨_, rfl, rfl, rfl⟩
  · split
    · exact .inl ⟨_, rfl, rfl, rfl⟩
    · split
      · next hmath =>
        split
        · next hoperator => exact .inr (.inl ⟨hmath, hoperator, rfl⟩)
        · split
          · next hspace => exact .inr (.inr ⟨hmath, hspace, rfl⟩)
          · exact .inl ⟨_, rfl, rfl, rfl⟩
      -- outside of math functions there is nothing to let out
      · next hmath =>
        refine .inl ⟨_, Prod.ext ?_ rfl, rfl, rfl⟩
        rw [h (by simpa using hmath)]
        rfl

/-- A step writes the space that is due and the character, or an operator between spaces, or it
    takes note of a space and writes nothing. -/
theorem step_cases {s : Spacer} (h : s.Settled) (c : Char) (rest : Text) :
    ((s.step c rest).1 = s.gap.flush ++ [c] ∧ (s.step c rest).2.gap = .none) ∨
      (c ∈ operators ∧ (s.step c rest).1 = [' ', c, ' '] ∧ (s.step c rest).2.gap = .written) ∨
      (c = ' ' ∧ (s.step c rest).1 = [] ∧
        (s.step c rest).2.gap = if s.gap = .none then .due else s.gap) := by
  rcases step_kinds h c rest with ⟨next, hstep, -, hgap⟩ | ⟨-, hop, hstep⟩ | ⟨-, hspace, hstep⟩
  · rw [hstep]
    exact .inl ⟨rfl, hgap⟩
  · rw [hstep]
    exact .inr (.inl ⟨mem_operators_of_isOperator hop, rfl, rfl⟩)
  · rw [hstep]
    exact .inr (.inr ⟨hspace, rfl, rfl⟩)

/-- What keeps a space back is a space or an operator inside of a math function, and those do not
    leave it. -/
theorem settled_step (s : Spacer) (c : Char) (rest : Text) : (s.step c rest).2.Settled := by
  -- only an operator and a space keep something back, and both stay in the math function
  unfold step
  split
  · exact fun _ => rfl
  · split
    · exact fun _ => rfl
    · split
      · next hmath =>
        have hwithin : s.enclosing.head? = some true := by simpa [inMath] using hmath
        split
        · intro hout
          simp [inMath, hwithin] at hout
        · split
          · intro hout
            simp [inMath, hwithin] at hout
          · exact fun _ => rfl
      · exact fun _ => rfl

/-- Nothing is written for a gap that is not due. -/
theorem flush_eq_nil {s : Spacer} (h : s.gap ≠ .due) : s.gap.flush = [] := by
  cases hgap : s.gap with
  | due => exact absurd hgap h
  | none | written => rfl

/-- An operator inside of a math function is written between spaces. -/
theorem step_eq_space {s : Spacer} {c : Char} {rest : Text} (hin : s.inMath = true)
    (hop : isOperator s.before c rest = true) :
    s.step c rest = ([' ', c, ' '], s.paused (c :: s.before) .written) := by
  obtain ⟨⟨hopen, hclose⟩, -⟩ := ne_of_mem_operators (mem_operators_of_isOperator hop)
  rw [step, if_neg hopen, if_neg hclose, if_pos hin, if_pos hop, paused]

/-- A space inside of a math function is kept back. -/
theorem step_space {s : Spacer} (hin : s.inMath = true) (rest : Text) :
    s.step ' ' rest =
      ([], s.paused (' ' :: s.before) (if s.gap = .none then .due else s.gap)) := by
  rw [step, if_neg (by decide), if_neg (by decide), if_pos hin, isOperator_space,
    if_neg Bool.false_ne_true, if_pos rfl, paused]

end Spacer

end UtilityClass.Value
