import UtilityClass.Proofs.Text.Digit
import UtilityClass.Proofs.Value.Arithmetic

/-!
# Reading a part of a text

Whether a character is an operator hangs on little: on the last character in front of it that is no
blank, where that may mark an exponent on whether a digit is in front of the mark, and on whether a
digit or a letter follows.  So two spacers that differ only in what they have read do the same at
the next character if what they have read looks alike from there, and what follows does.

## Key results

- `isOperator_congr`: texts that look alike have the same operators between them
- `Spacer.step_seeing`: what was read matters to a step by the operators alone
- `Spacer.run_append`: a text is read part by part
-/

namespace UtilityClass.Value

variable {b b' k k' : Text} {c : Char}

/-! ## What follows an operator -/

/-- A text that begins with neither a digit nor a letter. -/
structure Mute (k : Text) : Prop where
  digit : k.head?.any Text.isDigitSign = false
  letter : k.head?.any Text.isLetter = false

/-- At the end of a text nothing follows. -/
theorem mute_nil : Mute [] := ⟨rfl, rfl⟩

/-- A space or an operator comes before no number and no name. -/
theorem mute_cons (hc : c = ' ' ∨ c ∈ operators) (k : Text) : Mute (c :: k) := by
  -- none of these five characters is a digit, a sign of one, or a letter
  have hnone : Text.isDigitSign c = false ∧ Text.isLetter c = false := by
    rcases hc with rfl | hc
    · decide +kernel
    · rcases mem_operators_iff.1 hc with rfl | rfl | rfl | rfl <;> decide +kernel
  exact ⟨hnone.1, hnone.2⟩

/-- Two texts still to be read that look alike from what is in front of them. -/
structure NextAlike (k k' : Text) : Prop where
  digit_eq : k.head?.any Text.isDigitSign = k'.head?.any Text.isDigitSign
  letter_eq : k.head?.any Text.isLetter = k'.head?.any Text.isLetter

/-- Two texts that begin with neither a digit nor a letter look alike. -/
theorem Mute.nextAlike (h : Mute k) (h' : Mute k') : NextAlike k k' :=
  ⟨h.digit.trans h'.digit.symm, h.letter.trans h'.letter.symm⟩

/-- A text looks like itself. -/
theorem NextAlike.refl (k : Text) : NextAlike k k := ⟨rfl, rfl⟩

/-- No more is seen of a text than its first character. -/
theorem nextAlike_of_head?_eq (h : k.head? = k'.head?) : NextAlike k k' where
  digit_eq := by rw [h]
  letter_eq := by rw [h]

/-! ## What is in front of an operator -/

/-- What decides in front of a `+` or `-`: the operand, and whether it may mark an exponent and a
    digit is in front of it. -/
def operandOf (before : Text) : Option (Char × Bool) :=
  match before.dropWhile Text.isBlank with
  | [] => none
  | operand :: earlier =>
    some (operand, (operand == 'e' || operand == 'E') && earlier.head?.any Text.isDigitSign)

/-- A blank at the end is passed over. -/
theorem operandOf_cons_of_blank (hc : Text.isBlank c = true) (b : Text) :
    operandOf (c :: b) = operandOf b := by
  rw [operandOf, List.dropWhile_cons_of_pos hc, operandOf]

/-- A character that is no blank is the operand, and only what is next to it is asked for
    besides. -/
theorem operandOf_cons (hc : Text.isBlank c = false) (b : Text) :
    operandOf (c :: b) =
      some (c, (c == 'e' || c == 'E') && b.head?.any Text.isDigitSign) := by
  rw [operandOf, List.dropWhile_cons_of_neg (by rw [hc]; exact Bool.false_ne_true)]

/-- Two texts read so far, nearest character first, that look alike from all that may follow. -/
structure SeenAlike (b b' : Text) : Prop where
  operandOf_eq : operandOf b = operandOf b'
  digit_eq : b.head?.any Text.isDigitSign = b'.head?.any Text.isDigitSign

/-- What was read looks like itself. -/
theorem SeenAlike.refl (b : Text) : SeenAlike b b := ⟨rfl, rfl⟩

/-- The same character behind texts that look alike. -/
theorem SeenAlike.cons (h : SeenAlike b b') (c : Char) : SeenAlike (c :: b) (c :: b') where
  operandOf_eq := by
    -- a blank is passed over, so what is behind it decides; any other character is the operand
    -- itself
    cases hc : Text.isBlank c with
    | true => rw [operandOf_cons_of_blank hc, operandOf_cons_of_blank hc, h.operandOf_eq]
    | false => rw [operandOf_cons hc, operandOf_cons hc, h.digit_eq]
  digit_eq := rfl

/-- Where no digit is at the end, one more space is not seen. -/
theorem SeenAlike.cons_space (h : SeenAlike b b') (hdigit : b.head?.any Text.isDigitSign = false) :
    SeenAlike (' ' :: b) b' where
  operandOf_eq := (operandOf_cons_of_blank (by decide) b).trans h.operandOf_eq
  digit_eq := by
    rw [← h.digit_eq, hdigit]
    exact (mute_cons (.inl rfl) b).digit

/-- Nothing is seen past an operator, nor whether a space is behind it. -/
theorem seenAlike_operator (hc : c ∈ operators) (b b' : Text) :
    SeenAlike (c :: b) (' ' :: c :: b') := by
  have hfacts : Text.isBlank c = false ∧ (c == 'e' || c == 'E') = false := by
    rcases mem_operators_iff.1 hc with rfl | rfl | rfl | rfl <;> decide +kernel
  obtain ⟨hblank, hmark⟩ := hfacts
  constructor
  -- an operator is no mark of an exponent, so what is in front of it is not asked for
  · have hspace : Text.isBlank ' ' = true := by decide
    rw [operandOf_cons_of_blank hspace, operandOf_cons hblank, operandOf_cons hblank, hmark,
      Bool.false_and, Bool.false_and]
  · exact (mute_cons (.inr hc) b).digit.trans (mute_cons (.inl rfl) (c :: b')).digit.symm

/-! ## Operators -/

/-- What decides over a `+` or `-`. -/
theorem isOperator_eq (hc : c = '+' ∨ c = '-') (b k : Text) :
    isOperator b c k = (operandOf b).any fun (operand, marked) =>
      (Text.isAlphanumeric operand || operand == '%' || operand == ')')
        && !(marked && k.head?.any Text.isDigitSign)
        && !(Text.isLetter operand && k.head?.any Text.isLetter) := by
  have hne : ¬ (c = '*' ∨ c = '/') := by
    rcases hc with rfl | rfl <;> decide
  rw [isOperator, if_neg hne, if_pos hc, operandOf]
  cases b.dropWhile Text.isBlank with
  | nil => rfl
  | cons operand earlier => rfl

/-- Texts that look alike have the same operators between them. -/
theorem isOperator_congr (h : SeenAlike b b') (hnext : NextAlike k k') :
    isOperator b c k = isOperator b' c k' := by
  -- only a plus or a minus looks around; the others are operators wherever they stand
  by_cases hc : c = '+' ∨ c = '-'
  · rw [isOperator_eq hc, isOperator_eq hc, h.operandOf_eq, hnext.digit_eq, hnext.letter_eq]
  · rw [isOperator, isOperator, if_neg hc, if_neg hc]

/-- Blanks behind an operand are not seen. -/
theorem isOperator_cons_of_blank {d : Char} (hd : Text.isBlank d = true) (b k : Text) :
    isOperator (d :: b) c k = isOperator b c k := by
  rw [isOperator, List.dropWhile_cons_of_pos hd, isOperator]

/-- An operator stays one if neither a digit nor a letter follows. -/
theorem isOperator_of_mute (h : isOperator b c k = true) (hk : Mute k') :
    isOperator b c k' = true := by
  by_cases hc : c = '+' ∨ c = '-'
  · rw [isOperator_eq hc] at h ⊢
    rw [hk.digit, hk.letter]
    -- a digit or a letter behind it can only speak against an operator
    obtain ⟨⟨operand, marked⟩, hoperand, hsides⟩ := (Option.any_eq_true _ _).1 h
    rw [Option.any_eq_true]
    refine ⟨(operand, marked), hoperand, ?_⟩
    simp only [Bool.and_eq_true] at hsides
    simp [hsides.1.1]
  · rw [isOperator, if_neg hc] at h ⊢
    exact h

namespace Spacer

variable {s : Spacer}

/-! ## Spacers that have seen other texts -/

/-- The spacer as if it had read the text `b`. -/
def seeing (s : Spacer) (b : Text) : Spacer := { s with before := b }

/-- What was read matters to a step by the operators alone. -/
theorem step_seeing {out : Text} {next : Spacer} (hstep : s.step c k = (out, next))
    (h : isOperator s.before c k = isOperator b c k') :
    (s.seeing b).step c k' = (out, next.seeing (c :: b)) := by
  suffices (s.seeing b).step c k' = ((s.step c k).1, (s.step c k).2.seeing (c :: b)) by
    rw [this, hstep]
  -- a step reads off what was read in one place only, where it asks for an operator
  have hinMath : (s.seeing b).inMath = s.inMath := rfl
  have hbefore : isOperator (s.seeing b).before c k' = isOperator s.before c k := h.symm
  unfold step
  rw [hinMath, hbefore]
  split
  · rfl
  · split
    · rfl
    · split
      · split
        · rfl
        · split
          · rfl
          · rfl
      · rfl

/-! ## Reading part by part -/

/-- What a spacer writes for the text `t` when `k` follows. -/
def written (s : Spacer) (k : Text) : Text → Text
  | [] => []
  | c :: rest => (s.step c (rest ++ k)).1 ++ (s.step c (rest ++ k)).2.written k rest

/-- The spacer behind the text `t` when `k` follows. -/
def after (s : Spacer) (k : Text) : Text → Spacer
  | [] => s
  | c :: rest => (s.step c (rest ++ k)).2.after k rest

/-- What is written for one character more, by the step at it. -/
theorem written_cons {t out : Text} {next : Spacer} (h : s.step c (t ++ k) = (out, next)) :
    s.written k (c :: t) = out ++ next.written k t := by
  rw [written, h]

/-- Where a spacer is behind one character more, by the step at it. -/
theorem after_cons {t out : Text} {next : Spacer} (h : s.step c (t ++ k) = (out, next)) :
    s.after k (c :: t) = next.after k t := by
  rw [after, h]

/-- What is written for a single character. -/
theorem written_singleton {out : Text} {next : Spacer} (h : s.step c k = (out, next)) :
    s.written k [c] = out := by
  rw [written_cons (t := []) h, written, List.append_nil]

/-- Where a spacer is behind a single character. -/
theorem after_singleton {out : Text} {next : Spacer} (h : s.step c k = (out, next)) :
    s.after k [c] = next := by
  rw [after_cons (t := []) h, after]

/-- A text is read part by part. -/
theorem run_append (s : Spacer) (t k : Text) :
    s.run (t ++ k) = s.written k t ++ (s.after k t).run k := by
  -- the first part is read character by character, each with the second part behind it
  induction t generalizing s with
  | nil => rfl
  | cons c rest ih => rw [List.cons_append, run, ih, written, after, List.append_assoc]

/-- A run writes what is written for the text, and at its end the space that is due. -/
theorem run_eq (s : Spacer) (t : Text) : s.run t = s.written [] t ++ (s.after [] t).gap.flush := by
  rw [← run, ← run_append, List.append_nil]

/-- What is written for two parts, the first with the second behind it. -/
theorem written_append (s : Spacer) (k t u : Text) :
    s.written k (t ++ u) = s.written (u ++ k) t ++ (s.after (u ++ k) t).written k u := by
  induction t generalizing s with
  | nil => rfl
  | cons c rest ih => rw [List.cons_append, written, ih, written, after, List.append_assoc,
      List.append_assoc]

/-- Where a spacer is behind two parts, the first with the second behind it. -/
theorem after_append (s : Spacer) (k t u : Text) :
    s.after k (t ++ u) = (s.after (u ++ k) t).after k u := by
  induction t generalizing s with
  | nil => rfl
  | cons c rest ih => rw [List.cons_append, after, ih, after, List.append_assoc]

/-! ## Gaps -/

/-- A space that is due is written before anything else. -/
theorem written_of_due (h : s.Settled) (hdue : s.gap = .due) (k t : Text) :
    ∃ more, s.written k t ++ (s.after k t).gap.flush = ' ' :: more := by
  induction t generalizing s with
  | nil => exact ⟨[], by rw [written, after, hdue]; rfl⟩
  | cons c rest ih =>
    have hnext := settled_step s c (rest ++ k)
    -- a character that is written, and an operator, let the space out; only a blank keeps it back
    rcases step_kinds h c (rest ++ k) with ⟨next, hstep, -⟩ | ⟨-, -, hstep⟩ | ⟨-, -, hstep⟩
    · exact ⟨_, by rw [written_cons hstep, hdue]; rfl⟩
    · exact ⟨_, by rw [written_cons hstep]; rfl⟩
    · -- one more space does not change that
      have hne : Gap.due ≠ .none := by decide
      rw [hdue, if_neg hne] at hstep
      rw [hstep] at hnext
      rw [written_cons hstep, after_cons hstep]
      exact ih hnext rfl

/-- A space is kept back inside of a math function, where no name is begun and no digit is at the
    end of what was read. -/
structure Tidy (s : Spacer) : Prop where
  settled : s.Settled
  name_eq : s.gap ≠ .none → s.name = []
  digit : s.gap ≠ .none → s.before.head?.any Text.isDigitSign = false

/-- A spacer that has read nothing keeps no space back. -/
theorem tidy_start : start.Tidy := ⟨settled_start, fun _ => rfl, fun _ => rfl⟩

/-- A step keeps a spacer tidy. -/
theorem Tidy.next {out : Text} {next : Spacer} (h : s.Tidy) (hstep : s.step c k = (out, next)) :
    next.Tidy := by
  have hsettled := settled_step s c k
  -- a step writes the character and keeps nothing back, or it keeps a space back behind an operator
  -- or for a blank
  rcases step_kinds h.settled c k with
    ⟨next', hstep', -, hgap⟩ | ⟨-, hop, hstep'⟩ | ⟨-, rfl, hstep'⟩
  all_goals
    rw [hstep'] at hsettled hstep
    obtain ⟨-, rfl⟩ := Prod.mk.inj hstep
  · exact ⟨hsettled, fun hne => absurd hgap hne, fun hne => absurd hgap hne⟩
  · have hc := mem_operators_of_isOperator hop
    exact ⟨hsettled, fun _ => rfl, fun _ => (mute_cons (.inr hc) s.before).digit⟩
  · exact ⟨hsettled, fun _ => rfl, fun _ => (mute_cons (.inl rfl) s.before).digit⟩

/-- A spacer stays tidy through a text. -/
theorem Tidy.after (h : s.Tidy) (k t : Text) : (s.after k t).Tidy := by
  induction t generalizing s with
  | nil => exact h
  | cons c rest ih => exact ih (h.next rfl)

end Spacer

end UtilityClass.Value
