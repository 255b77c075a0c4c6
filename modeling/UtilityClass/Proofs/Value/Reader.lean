import UtilityClass.Proofs.Value.Syntax
import UtilityClass.Text.Blank

/-!
# The steps of a reader

What a reader can do with a character, as one rule for each case.  What every step keeps is said by
going through the rules, and what a whole text keeps follows by going through its characters.

## Key results

- `step_eq_some_iff`: the steps of a reader are those of the rules
- `step_of_not_mem_marks`: what a reader does with a character that it does not heed
- `read_within`: what can be read can be read within a group
-/

namespace UtilityClass.Value

/-- The characters that a reader heeds. -/
def marks : List Char := '\\' :: ';' :: quotes ++ brackets.map Prod.fst ++ brackets.map Prod.snd

/-- A character that is none of the marks is plain, and no semicolon. -/
theorem isPlain_of_not_mem_marks {c : Char} (h : c ∉ marks) : IsPlain c ∧ c ≠ ';' := by
  simp only [marks, List.cons_append, List.mem_cons, List.mem_append, List.mem_map, not_or,
    not_exists, not_and] at h
  obtain ⟨hescape, hsemicolon, ⟨hquote, hopener⟩, hcloser⟩ := h
  exact ⟨⟨hescape, hquote, fun pair hpair =>
    ⟨fun heq => hopener pair hpair heq.symm, fun heq => hcloser pair hpair heq.symm⟩⟩, hsemicolon⟩

/-- No blank is a mark. -/
theorem not_mem_marks_of_isBlank {c : Char} (h : Text.isBlank c = true) : c ∉ marks := by
  have hmarks : ∀ mark ∈ marks, (! Text.isBlank mark) = true := List.all_eq_true.1 rfl
  intro hmem
  have hblank := hmarks c hmem
  rw [h] at hblank
  exact nomatch hblank

namespace Reader

/-! ## Rules -/

/-- What becomes of a reader that reads a character. -/
inductive Steps : Reader → Char → Reader → Prop
  /-- A pending escape is spent, whatever the character is. -/
  | escaped {awaited : List Char} {quote : Option Char} (c : Char) :
      Steps ⟨awaited, quote, true⟩ c ⟨awaited, quote, false⟩
  | escape {awaited : List Char} {quote : Option Char} :
      Steps ⟨awaited, quote, false⟩ '\\' ⟨awaited, quote, true⟩
  | closeQuote {awaited : List Char} {quote : Char} (hescape : quote ≠ '\\') :
      Steps ⟨awaited, some quote, false⟩ quote ⟨awaited, none, false⟩
  | withinQuote {awaited : List Char} {quote c : Char} (hescape : c ≠ '\\') (hquote : c ≠ quote) :
      Steps ⟨awaited, some quote, false⟩ c ⟨awaited, some quote, false⟩
  | openQuote {awaited : List Char} {quote : Char} (hquote : quote ∈ quotes) :
      Steps ⟨awaited, none, false⟩ quote ⟨awaited, some quote, false⟩
  | openGroup {awaited : List Char} {opener closer : Char} (hpair : (opener, closer) ∈ brackets) :
      Steps ⟨awaited, none, false⟩ opener ⟨closer :: awaited, none, false⟩
  | closeGroup {awaited : List Char} {opener closer : Char} (hpair : (opener, closer) ∈ brackets) :
      Steps ⟨closer :: awaited, none, false⟩ closer ⟨awaited, none, false⟩
  | plain {awaited : List Char} {c : Char} (hc : IsPlain c) (hsemicolon : c = ';' → awaited ≠ []) :
      Steps ⟨awaited, none, false⟩ c ⟨awaited, none, false⟩

/-- A step follows one of the rules. -/
theorem steps_of_step {r r' : Reader} {c : Char} (h : r.step c = some r') : r.Steps c r' := by
  -- the cases of the step, in its order: a pending escape, a backslash, an open quote, and last
  -- what stands by itself
  obtain ⟨awaited, quote, escaped⟩ := r
  cases escaped with
  | true =>
    obtain rfl : _ = r' := Option.some.inj h
    exact .escaped c
  | false =>
    by_cases hescape : c = '\\'
    · subst hescape
      obtain rfl : _ = r' := Option.some.inj h
      exact .escape
    · cases quote with
      | some quote =>
        have hr :
            some (if c = quote then ⟨awaited, none, false⟩ else ⟨awaited, some quote, false⟩) =
              some r' := by simpa [step, hescape] using h
        obtain rfl := Option.some.inj hr
        split
        · next heq =>
          subst heq
          exact .closeQuote hescape
        · next hquote => exact .withinQuote hescape hquote
      | none =>
        rw [step_eq_stepPlain hescape, stepPlain_eq_some_iff hescape] at h
        rcases h with ⟨hquote, rfl⟩ | ⟨closer, hpair, rfl⟩ | ⟨opener, outer, hpair, hawaited, rfl⟩ |
          ⟨hplain, hsemicolon, rfl⟩
        · exact .openQuote hquote
        · exact .openGroup hpair
        · obtain rfl : awaited = c :: outer := hawaited
          exact .closeGroup hpair
        · exact .plain hplain hsemicolon

/-- Every rule is a step. -/
theorem step_of_steps {r r' : Reader} {c : Char} (h : r.Steps c r') : r.step c = some r' := by
  cases h with
  | escaped c => rfl
  | escape => rfl
  | closeQuote hescape => simp [step, hescape]
  | withinQuote hescape hquote => simp [step, hescape, hquote]
  -- a quote and a bracket are no backslash, so they are judged as they are
  | openQuote hquote =>
    have hescape : c ≠ '\\' := by rintro rfl; exact absurd hquote (by decide)
    rw [step_eq_stepPlain hescape]
    exact (stepPlain_eq_some_iff hescape).2 (.inl ⟨hquote, rfl⟩)
  | @openGroup awaited _ closer hpair =>
    have hescape : c ≠ '\\' := by rintro rfl; simp [brackets] at hpair
    rw [step_eq_stepPlain hescape]
    exact (stepPlain_eq_some_iff hescape).2 (.inr (.inl ⟨closer, hpair, rfl⟩))
  | @closeGroup awaited opener _ hpair =>
    have hescape : c ≠ '\\' := by rintro rfl; simp [brackets] at hpair
    rw [step_eq_stepPlain hescape]
    exact (stepPlain_eq_some_iff hescape).2 (.inr (.inr (.inl ⟨opener, awaited, hpair, rfl, rfl⟩)))
  | plain hc hsemicolon =>
    rw [step_eq_stepPlain hc.ne_escape]
    exact (stepPlain_eq_some_iff hc.ne_escape).2 (.inr (.inr (.inr ⟨hc, hsemicolon, rfl⟩)))

/-- The steps of a reader are those of the rules. -/
theorem step_eq_some_iff {r r' : Reader} {c : Char} : r.step c = some r' ↔ r.Steps c r' :=
  ⟨steps_of_step, step_of_steps⟩

/-- The last character of a text is read by the reader that the text in front leaves. -/
theorem read_concat_eq_some_iff {r r' : Reader} {v : Text} {c : Char} :
    r.read (v ++ [c]) = some r' ↔ ∃ before, r.read v = some before ∧ before.Steps c r' := by
  rw [read_append, Option.bind_eq_some_iff]
  refine exists_congr fun before => and_congr_right fun _ => ?_
  rw [read_cons, ← step_eq_some_iff]
  cases before.step c <;> rfl

/-- Texts that begin with the same character are read alike if what is behind it is. -/
theorem read_cons_congr {r : Reader} {c : Char} {v w : Text}
    (h : ∀ r', r.Steps c r' → r'.read v = r'.read w) : r.read (c :: v) = r.read (c :: w) := by
  rw [read_cons, read_cons]
  cases hstep : r.step c with
  | none => rfl
  | some r' => exact h r' (steps_of_step hstep)

/-- What every step keeps is kept by reading a text. -/
theorem read_induction {P : Reader → Prop} (hsteps : ∀ {r c r'}, Steps r c r' → P r → P r')
    {r r' : Reader} {v : Text} (hread : r.read v = some r') (h : P r) : P r' := by
  -- the property goes from character to character
  induction v generalizing r with
  | nil =>
    obtain rfl : r = r' := Option.some.inj hread
    exact h
  | cons c v ih =>
    obtain ⟨next, hstep, hmore⟩ := Option.bind_eq_some_iff.1 hread
    exact ih hmore (hsteps (steps_of_step hstep) h)

/-! ## Characters that are not heeded -/

/-- What is open in a reader is a quote. -/
def QuotesOnly (r : Reader) : Prop := ∀ q, r.quote = some q → q ∈ quotes

/-- Nothing is open at the start. -/
theorem quotesOnly_start : start.QuotesOnly := fun _ h => nomatch h

/-- A step opens nothing but quotes. -/
theorem QuotesOnly.step {r r' : Reader} (h : r.QuotesOnly) {c : Char} (hstep : r.Steps c r') :
    r'.QuotesOnly := by
  cases hstep with
  | escaped | escape => exact h
  | closeQuote | openGroup | closeGroup | plain => exact fun _ hq => nomatch hq
  | withinQuote => exact h
  | openQuote hquote => exact fun q hq => Option.some.inj hq ▸ hquote

/-- Reading opens nothing but quotes. -/
theorem QuotesOnly.read {r r' : Reader} (h : r.QuotesOnly) {v : Text} (hread : r.read v = some r') :
    r'.QuotesOnly :=
  read_induction (fun hstep h => QuotesOnly.step h hstep) hread h

/-- The reader without its pending escape. -/
def unescaped (r : Reader) : Reader := { r with escaped := false }

/-- A reader without a pending escape has none to lose. -/
theorem unescaped_eq_self {r : Reader} (h : r.escaped = false) : r.unescaped = r := by
  unfold unescaped
  rw [← h]

/-- A spent escape opens nothing. -/
theorem QuotesOnly.unescaped {r : Reader} (h : r.QuotesOnly) : r.unescaped.QuotesOnly := h

/-- A character that a reader does not heed is spent on a pending escape, or changes nothing. -/
theorem step_of_not_mem_marks {r : Reader} (hr : r.QuotesOnly) {c : Char} (hc : c ∉ marks) :
    r.step c = some r.unescaped := by
  obtain ⟨hplain, hsemicolon⟩ := isPlain_of_not_mem_marks hc
  obtain ⟨awaited, quote, escaped⟩ := r
  rw [step_eq_some_iff]
  -- a pending escape is spent; otherwise the character is plain, and is no quote that is open
  cases escaped with
  | true => exact .escaped c
  | false =>
    cases quote with
    | none => exact .plain hplain fun h => absurd h hsemicolon
    | some quote =>
      refine .withinQuote hplain.ne_escape ?_
      rintro rfl
      exact hplain.not_quote (hr c rfl)

/-! ## Groups -/

/-- The reader with more brackets awaited around all others. -/
def within (outer : List Char) (r : Reader) : Reader := { r with awaited := r.awaited ++ outer }

/-- A step can be done within a group. -/
theorem steps_within (outer : List Char) {r r' : Reader} {c : Char} (h : r.Steps c r') :
    (r.within outer).Steps c (r'.within outer) := by
  cases h with
  | escaped c => exact .escaped c
  | escape => exact .escape
  | closeQuote hescape => exact .closeQuote hescape
  | withinQuote hescape hquote => exact .withinQuote hescape hquote
  | openQuote hquote => exact .openQuote hquote
  | openGroup hpair => exact .openGroup hpair
  | closeGroup hpair => exact .closeGroup hpair
  -- within a group a semicolon is allowed in any case
  | plain hc hsemicolon =>
    refine .plain hc ?_
    intro h hnil
    exact hsemicolon h (List.append_eq_nil_iff.1 hnil).1

/-- What can be read can be read within a group. -/
theorem read_within (outer : List Char) {r r' : Reader} {v : Text} (h : r.read v = some r') :
    (r.within outer).read v = some (r'.within outer) := by
  induction v generalizing r with
  | nil =>
    obtain rfl : r = r' := Option.some.inj h
    rfl
  | cons c v ih =>
    obtain ⟨next, hstep, hmore⟩ := Option.bind_eq_some_iff.1 h
    rw [read_cons, step_of_steps (steps_within outer (steps_of_step hstep)), Option.bind_some]
    exact ih hmore

end Reader

end UtilityClass.Value
