import UtilityClass.Proofs.Text.Blank
import UtilityClass.Proofs.Value.Address
import UtilityClass.Value.Canonical

/-!
# Values that come out empty

The canonical form of a value has no blanks at its ends, and an underscore stands for a blank.  So a
value that is written with underscores and blanks alone has an empty canonical form, though it is
not empty itself.  No other value has one.

## Key results

- `spaced_blank_iff`: which values are read as blanks alone
- `spaceOperators_eq_nil_iff`: spacing operators leaves nothing of the empty text alone
- `canonical_eq_nil_iff`: which values have an empty canonical form
-/

namespace UtilityClass.Value

/-- A value that is written with underscores and blanks alone. -/
def SpellsBlanks (t : Text) : Prop := ∀ c ∈ t, c = '_' ∨ Text.isBlank c = true

instance (t : Text) : Decidable (SpellsBlanks t) :=
  inferInstanceAs (Decidable (∀ c ∈ t, _))

/-- An underscore is read as a blank unless it is escaped, and then neither it nor the escape is
    one. -/
theorem spaced_blank_iff (t : Text) :
    (∀ c ∈ spaced t, Text.isBlank c = true) ↔ SpellsBlanks t := by
  -- along the cases of `spaced`: an escaped underscore rules blanks out on both sides
  induction t using spaced.induct with
  | case1 => simp [spaced, SpellsBlanks]
  | case2 rest ih =>
    have hescape : ¬ SpellsBlanks ('\\' :: '_' :: rest) :=
      fun h => absurd (h '\\' List.mem_cons_self) (by decide)
    have hunderscore : ¬ ∀ c ∈ spaced ('\\' :: '_' :: rest), Text.isBlank c = true := by
      rw [spaced]
      exact fun h => absurd (h '_' List.mem_cons_self) (by decide)
    exact iff_of_false hunderscore hescape
  | case3 c rest hpair ih =>
    rw [spaced]
    · rw [List.forall_mem_cons, ih, SpellsBlanks, SpellsBlanks, List.forall_mem_cons]
      refine and_congr ?_ Iff.rfl
      by_cases hc : c = '_'
      · rw [if_pos hc]
        exact iff_of_true (by decide) (.inl hc)
      · rw [if_neg hc, or_iff_right hc]
    · exact hpair

/-! ## Spaced operators -/

/-- Parentheses are copied. -/
theorem Spacer.open_mem_run {t : Text} (h : '(' ∈ t) (s : Spacer) : '(' ∈ s.run t := by
  -- over the text, for all spacers: a step writes the character that it reads, or a later one does
  induction t generalizing s with
  | nil => exact nomatch h
  | cons c rest ih =>
    rw [run, List.mem_append]
    rcases List.mem_cons.1 h with hc | hrest
    · refine .inl ?_
      rw [step, if_pos hc.symm, ← hc]
      exact List.mem_append_right _ List.mem_cons_self
    · exact .inr (ih hrest _)

/-- A text that calls a math function has a parenthesis. -/
theorem open_mem_of_callsMath {t : Text} (h : callsMath t = true) : '(' ∈ t := by
  obtain ⟨f, -, hf⟩ := List.any_eq_true.1 h
  obtain ⟨left, right, rfl⟩ := Text.occurs_iff.1 hf
  simp

/-- Spacing operators leaves nothing of the empty text alone. -/
theorem spaceOperators_eq_nil_iff {t : Text} : spaceOperators t = [] ↔ t = [] := by
  unfold spaceOperators
  split
  · next hmath =>
    -- a text that is spaced has a parenthesis, and keeps it
    have hopen := open_mem_of_callsMath hmath
    have hrun := Spacer.open_mem_run hopen .start
    exact iff_of_false (List.ne_nil_of_mem hrun) (List.ne_nil_of_mem hopen)
  · exact Iff.rfl

/-! ## Canonical forms -/

/-- An address is kept, so the pieces of a value with a `url(` do not come out empty. -/
theorem canonicalPieces_ne_nil {t : Text} (h : Text.occurs addressLead t = true) :
    canonicalPieces (pieces t) ≠ .ok [] := by
  rw [pieces]
  split
  · -- without an address the `url(` stands in a gap
    rw [canonicalPieces, Piece.canonical, canonicalGap, if_pos h]
    intro hok
    cases hok
  · next front address after hcut =>
    obtain ⟨x, rfl, -⟩ := address_of_cutAddress? hcut
    rw [canonicalPieces, canonicalPieces]
    simp only [Piece.canonical]
    cases canonicalGap front <;> cases canonicalPieces (pieces after) <;> simp

/-- The canonical form of a value is empty exactly if the value is written with underscores and
    blanks alone. -/
theorem canonical_eq_nil_iff {t : Text} : canonical t = .ok [] ↔ SpellsBlanks t := by
  unfold canonical
  split
  · next hdashes =>
    -- a custom property begins with a dash
    obtain ⟨rest, rfl⟩ := List.isPrefixOf_iff_prefix.1 hdashes
    refine iff_of_false (by simp) ?_
    exact fun h => absurd (h '-' (by simp)) (by decide)
  · split
    · next hlead =>
      refine iff_of_false (canonicalPieces_ne_nil hlead) ?_
      obtain ⟨left, right, rfl⟩ := Text.occurs_iff.1 hlead
      exact fun h => absurd (h 'u' (by simp [addressLead])) (by decide)
    -- without dashes and addresses the value is read, trimmed and spaced
    · rw [Except.ok.injEq, spaceOperators_eq_nil_iff, Text.strip_eq_nil_iff, spaced_blank_iff]

end UtilityClass.Value
