import Mathlib.Data.List.Induction
import UtilityClass.Proofs.Value.Reader

/-!
# What may follow a value

A valid value leaves nothing open but, perhaps, an escape: a run of backslashes of odd length at its
end has one that escapes the character written next.  Any other valid value can be followed by
whatever is written, which then is valid or not on its own.

## Key results

- `read_escaped_iff`: a reader is left with a pending escape exactly by such a run of backslashes
- `read_of_isValid`: what a valid value leaves open
- `isValid_append_of_isValid`: whether a valid value with more text behind it is valid
-/

namespace UtilityClass.Value

/-- A text ends in an escape of nothing: of the backslashes that end it, two by two, one is left. -/
def EndsInEscape (v : Text) : Prop := (v.reverse.takeWhile (· = '\\')).length % 2 = 1

instance (v : Text) : Decidable (EndsInEscape v) := inferInstanceAs (Decidable (_ = _))

/-- The empty text ends in no escape. -/
theorem not_endsInEscape_nil : ¬ EndsInEscape [] := by decide

/-- One more character ends in an escape exactly if it is a backslash that is not escaped. -/
theorem endsInEscape_concat {v : Text} {c : Char} :
    EndsInEscape (v ++ [c]) ↔ c = '\\' ∧ ¬ EndsInEscape v := by
  unfold EndsInEscape
  rw [List.reverse_append, List.reverse_singleton, List.singleton_append, List.takeWhile_cons]
  -- the run of backslashes becomes longer by one, or is broken off
  by_cases hescape : c = '\\'
  · simp only [hescape, decide_true, if_true, List.length_cons, true_and]
    omega
  · simp [hescape]

/-! ## Pending escapes -/

namespace Reader

/-- An escape is pending behind a backslash that is not escaped itself. -/
theorem Steps.escaped_iff {r r' : Reader} {c : Char} (h : r.Steps c r') :
    r'.escaped = true ↔ c = '\\' ∧ r.escaped = false := by
  -- the characters that open and close are no backslashes
  have hquotes : '\\' ∉ quotes := by decide
  have hbrackets : ∀ pair ∈ brackets, pair.1 ≠ '\\' ∧ pair.2 ≠ '\\' := by decide
  cases h with
  | escaped | escape => simp
  | closeQuote hescape | withinQuote hescape => simp [hescape]
  | openQuote hquote => simp [ne_of_mem_of_not_mem hquote hquotes]
  | openGroup hpair => simp [(hbrackets _ hpair).1]
  | closeGroup hpair => simp [(hbrackets _ hpair).2]
  | plain hc => simp [hc.ne_escape]

/-- A reader is left with a pending escape exactly by a text that ends in one. -/
theorem read_escaped_iff {r r' : Reader} {v : Text} (hstart : r.escaped = false)
    (h : r.read v = some r') : r'.escaped = true ↔ EndsInEscape v := by
  -- from the start of the text to its end: the last character decides, with what is pending there
  induction v using List.reverseRecOn generalizing r' with
  | nil =>
    obtain rfl : r = r' := Option.some.inj h
    simp [hstart, not_endsInEscape_nil]
  | append_singleton v c ih =>
    obtain ⟨before, hbefore, hstep⟩ := read_concat_eq_some_iff.1 h
    rw [hstep.escaped_iff, endsInEscape_concat, ← ih hbefore, Bool.not_eq_true]

end Reader

/-! ## Valid values -/

/-- A value is valid if it is not empty and takes a reader from the start to rest. -/
theorem isValid_iff_read {v : Text} :
    isValid v = true ↔ v ≠ [] ∧ ∃ r, Reader.start.read v = some r ∧ r.atRest = true := by
  unfold isValid
  cases Reader.start.read v <;> simp

/-- A valid value leaves no bracket and no quote open, and an escape only if it ends in one. -/
theorem read_of_isValid {v : Text} (h : isValid v = true) :
    Reader.start.read v = some ⟨[], none, decide (EndsInEscape v)⟩ := by
  obtain ⟨-, r, hread, hrest⟩ := isValid_iff_read.1 h
  have hescaped := Reader.read_escaped_iff rfl hread
  -- at rest a reader has nothing open, so its escape is all that is left to be known
  obtain ⟨awaited, quote, escaped⟩ := r
  simp only [Reader.atRest, Bool.and_eq_true, List.isEmpty_iff, Option.isNone_iff_eq_none] at hrest
  obtain ⟨rfl, rfl⟩ := hrest
  rw [hread, ← Bool.decide_coe escaped]
  simp only [hescaped]

/-- A valid value with more text behind it is valid exactly if that text is, for every text that may
    follow, unless the value ends in an escape.  Such a value escapes the character behind it, and
    what follows that decides; so a semicolon behind it does not end the declaration. -/
theorem isValid_append_of_isValid {v : Text} (h : isValid v = true) :
    ((∀ w, w ≠ [] → isValid (v ++ w) = isValid w) ↔ ¬ EndsInEscape v) ∧
      (EndsInEscape v → ∀ c w, isValid (v ++ c :: w) = (w.isEmpty || isValid w)) ∧
      (isValid (v ++ [';']) = true ↔ EndsInEscape v) := by
  have hne : v ≠ [] := (isValid_iff_read.1 h).1
  have hwhole : ∀ w, isValid (v ++ w) =
      ((Reader.mk [] none (decide (EndsInEscape v))).read w).any Reader.atRest := by
    intro w
    simp [isValid, hne, Reader.read_append, read_of_isValid h]
  have hescaping : EndsInEscape v → ∀ c w, isValid (v ++ c :: w) = (w.isEmpty || isValid w) := by
    intro hends c w
    -- the pending escape takes the first character, and the rest is read from the start
    have hrest : (Reader.mk [] none true).read (c :: w) = Reader.start.read w := rfl
    rw [hwhole, decide_eq_true hends, hrest]
    cases w with
    | nil => rfl
    | cons d more => simp [isValid]
  have hplain : ¬ EndsInEscape v → ∀ w, w ≠ [] → isValid (v ++ w) = isValid w := by
    intro hends w hw
    rw [hwhole, decide_eq_false hends]
    simp [isValid, hw, Reader.start]
  have hsemicolon : isValid (v ++ [';']) = true ↔ EndsInEscape v := by
    by_cases hends : EndsInEscape v
    · simp [hescaping hends, hends]
    · rw [hplain hends [';'] (by simp)]
      exact iff_of_false (by decide) hends
  refine ⟨⟨?_, hplain⟩, hescaping, hsemicolon⟩
  intro hall hends
  have hbad := hsemicolon.2 hends
  rw [hall [';'] (by simp)] at hbad
  exact absurd hbad (by decide)

/-- A value that ends in a lone backslash is valid, and so it is with a semicolon behind it. -/
theorem isValid_append_of_isValid_backslash :
    isValid "a\\" = true ∧ EndsInEscape "a\\" ∧ isValid "a\\;" = true ∧ isValid ";" = false := by
  have hvalid : isValid "a\\" = true := by decide
  have hends : EndsInEscape "a\\" := by decide
  exact ⟨hvalid, hends, (isValid_append_of_isValid hvalid).2.2.2 hends, by decide⟩

end UtilityClass.Value
