import UtilityClass.Proofs.Text.Blank
import UtilityClass.Proofs.Text.Cut
import UtilityClass.Proofs.Text.Digit
import UtilityClass.Proofs.Value.Arithmetic
import UtilityClass.Proofs.Value.Expression

/-!
# Spacing the operators of an expression

Inside a math function the spacer reads an expression that is written without spaces operand by
operand.  An operand begins behind a parenthesis or an operator, so a sign there is none of the
operators; it ends in a digit, a point, a letter, a percent sign or a parenthesis, and these decide
what becomes of the operator behind it.  Inside of a group everything is copied.

## Key results

- `Spacer.Goes`: what a spacer writes for a text, whatever follows
- `Expression.isOperator_behind`: which `+` and `-` behind an expression are seen
- `Expression.goes`: inside a math function, an expression comes out as `Expression.spacedText`
- `spaceOperators_calc`: so it does in a call of `calc`, and with spaces around all operators and
  nothing else exactly if it is fully spaced
-/

namespace UtilityClass.Value

/-! ## Math names -/

/-- A name is that of no math function if it ends in an `r` or an operator. -/
theorem isMathName_concat {c : Char} (hc : c = 'r' ∨ c ∈ operators) (t : Text) :
    isMathName (t ++ [c]) = false := by
  have hlast : Text.isBlank c = false ∧ Text.lowerChar c = c ∧
      -- the last character decides: no name in the list ends in an `r` or an operator
      some c ∉ mathFunctions.map List.getLast? := by
    rcases hc with rfl | hc
    · decide +kernel
    · rcases mem_operators_iff.1 hc with rfl | rfl | rfl | rfl <;> decide +kernel
  obtain ⟨hblank, hlower, hname⟩ := hlast
  rw [isMathName, Text.strip_concat hblank, Text.lower, List.map_append, List.map_singleton, hlower,
    ← Bool.not_eq_true, List.contains_iff_mem]
  exact fun hmem => hname (List.mem_map.2 ⟨_, hmem, List.getLast?_concat⟩)

/-! ## Reading without regard to what follows -/

namespace Spacer

variable {s s₁ s₂ : Spacer} {t t' out out' : Text} {c : Char}

/-- For the text `t`, whatever follows, the spacer `s` writes `out` and becomes `s'`.  It is in the
    same parentheses then, and no space is due. -/
structure Goes (s : Spacer) (t out : Text) (s' : Spacer) : Prop where
  run_append : ∀ k, s.run (t ++ k) = out ++ s'.run k
  enclosing_eq : s'.enclosing = s.enclosing
  before_eq : s'.before = t.reverse ++ s.before
  gap_ne : s'.gap ≠ .due

/-- An empty text leaves a spacer that has no space due. -/
theorem Goes.refl (h : s.gap ≠ .due) : s.Goes [] [] s := ⟨fun _ => rfl, rfl, rfl, h⟩

/-- What is written for two texts, one behind the other. -/
theorem Goes.trans (h : s.Goes t out s₁) (h' : s₁.Goes t' out' s₂) :
    s.Goes (t ++ t') (out ++ out') s₂ where
  run_append k := by rw [List.append_assoc, h.run_append, h'.run_append, List.append_assoc]
  enclosing_eq := h'.enclosing_eq.trans h.enclosing_eq
  before_eq := by rw [h'.before_eq, h.before_eq, List.reverse_append, List.append_assoc]
  gap_ne := h'.gap_ne

/-- The parentheses decide whether a spacer is in a math function, so a text between them does
    not. -/
theorem Goes.inMath_eq (h : s.Goes t out s₁) : s₁.inMath = s.inMath := by
  rw [inMath, inMath, h.enclosing_eq]

/-- A step within the same parentheses goes on with the rest of the text. -/
theorem Goes.cons (hstep : ∀ k, s.step c (t ++ k) = (out, s₁))
    (henclosing : s₁.enclosing = s.enclosing) (hbefore : s₁.before = c :: s.before)
    (h : s₁.Goes t out' s₂) : s.Goes (c :: t) (out ++ out') s₂ where
  run_append k := by
    rw [List.cons_append, run, hstep, h.run_append, List.append_assoc]
  enclosing_eq := h.enclosing_eq.trans henclosing
  before_eq := by rw [h.before_eq, hbefore, List.reverse_cons, List.append_assoc]; rfl
  gap_ne := h.gap_ne

/-- The spacer behind a character that was copied. -/
def past (s : Spacer) (c : Char) : Spacer := ⟨s.enclosing, s.nameWith c, c :: s.before, .none⟩

/-- Characters are copied outside of math functions, and inside of them all but spaces and
    operators. -/
theorem step_eq_copy {rest : Text} (hgap : s.gap ≠ .due) (hparens : c ≠ '(' ∧ c ≠ ')')
    (hmath : s.inMath = true → c ≠ ' ' ∧ isOperator s.before c rest = false) :
    s.step c rest = ([c], s.past c) := by
  rw [step, if_neg hparens.1, if_neg hparens.2]
  split
  · next hin =>
    obtain ⟨hspace, hop⟩ := hmath hin
    rw [hop, if_neg Bool.false_ne_true, if_neg hspace, flush_eq_nil hgap]
    rfl
  · rfl

/-! ### Copied texts -/

/-- The characters that are more than a part of a word. -/
def punctuation : List Char := ['(', ')', ' ', ','] ++ operators

/-- A text without punctuation is copied, and is part of the name before a parenthesis. -/
theorem goes_word (hgap : s.gap ≠ .due) (h : ∀ c ∈ t, c ∉ punctuation) :
    ∃ s', s.Goes t t s' ∧ s'.name = t.reverse ++ s.name := by
  induction t generalizing s with
  -- on the word; each character is copied, and the next is read by a spacer that has it in its name
  | nil => exact ⟨s, .refl hgap, rfl⟩
  | cons c rest ih =>
    obtain ⟨hc, hrest⟩ := List.forall_mem_cons.1 h
    simp only [punctuation, List.mem_append, List.mem_cons, List.not_mem_nil, not_or,
      or_false] at hc
    obtain ⟨⟨hopen, hclose, hspace, hcomma⟩, hoperators⟩ := hc
    have hstep : ∀ k, s.step c (rest ++ k) = ([c], s.past c) := by
      intro k
      refine step_eq_copy hgap ⟨hopen, hclose⟩ fun _ => ⟨hspace, ?_⟩
      rw [← Bool.not_eq_true]
      exact fun hop => hoperators (mem_operators_of_isOperator hop)
    obtain ⟨s', hgoes, hname⟩ := ih (s := s.past c) nofun hrest
    refine ⟨s', .cons hstep rfl rfl hgoes, ?_⟩
    rw [hname, past, nameWith, if_neg (not_or.2 ⟨hspace, hcomma⟩), List.reverse_cons,
      List.append_assoc]
    rfl

/-- Outside of math functions every text without parentheses is copied. -/
theorem goes_outside (hout : s.inMath = false) (hgap : s.gap ≠ .due)
    (h : ∀ c ∈ t, c ≠ '(' ∧ c ≠ ')') : ∃ s', s.Goes t t s' := by
  induction t generalizing s with
  | nil => exact ⟨s, .refl hgap⟩
  | cons c rest ih =>
    -- the spacer stays outside, since no parenthesis of the text changes that
    obtain ⟨hc, hrest⟩ := List.forall_mem_cons.1 h
    have hstep : ∀ k, s.step c (rest ++ k) = ([c], s.past c) :=
      fun k => step_eq_copy hgap hc fun hin => absurd (hin.symm.trans hout) nofun
    obtain ⟨s', hgoes⟩ := ih (s := s.past c) hout nofun hrest
    exact ⟨s', .cons hstep rfl rfl hgoes⟩

/-! ### Parentheses -/

/-- The spacer behind an opening parenthesis. -/
def opened (s : Spacer) : Spacer :=
  ⟨isMathName s.name.reverse :: s.enclosing, [], '(' :: s.before, .none⟩

/-- Behind an opening parenthesis no space is due. -/
theorem opened_gap_ne (s : Spacer) : s.opened.gap ≠ .due := nofun

/-- Parentheses are copied, and what is between them is read as the name in front demands. -/
theorem goes_parenthesised (hgap : s.gap ≠ .due) (h : s.opened.Goes t out s₁) :
    ∃ s', s.Goes ('(' :: (t ++ [')'])) ('(' :: (out ++ [')'])) s' := by
  -- no space is due at either parenthesis, so each is written right away; the spacer between them
  -- is the one of the parentheses in front
  refine ⟨⟨s.enclosing, [], ')' :: s₁.before, .none⟩, ?_, rfl, ?_, nofun⟩
  · intro k
    have hopen : s.step '(' (t ++ [')'] ++ k) = (['('], s.opened) := by
      rw [step, if_pos rfl, flush_eq_nil hgap]
      rfl
    have hclose : s₁.step ')' k = ([')'], ⟨s.enclosing, [], ')' :: s₁.before, .none⟩) := by
      rw [step, if_neg (by decide), if_pos rfl, flush_eq_nil h.gap_ne, h.enclosing_eq]
      rfl
    have hbehind : s₁.run ([')'] ++ k) =
        ')' :: (⟨s.enclosing, [], ')' :: s₁.before, .none⟩ : Spacer).run k := by
      rw [List.singleton_append, run, hclose, List.singleton_append]
    rw [List.cons_append, run, hopen, List.append_assoc t, h.run_append, hbehind]
    simp
  · rw [h.before_eq]
    simp [opened]

/-! ### Operands -/

/-- A spacer in front of an operand: it is behind an opening parenthesis or an operator. -/
structure AtOperand (s : Spacer) : Prop where
  gap_ne : s.gap ≠ .due
  name_eq : s.name = [] ∨ ∃ c more, s.name = c :: more ∧ c ∈ operators
  before_eq : ∃ c more, s.before = c :: more ∧ c ∈ '(' :: operators

/-- Behind an opening parenthesis an operand is next. -/
theorem atOperand_opened (s : Spacer) : s.opened.AtOperand :=
  ⟨s.opened_gap_ne, .inl rfl, '(', s.before, rfl, List.mem_cons_self⟩

/-- An operand stands behind every operator. -/
theorem atOperand_of_operator {s : Spacer} (hc : c ∈ operators) (hgap : s.gap ≠ .due)
    (hname : s.name = [] ∨ s.name.head? = some c) (hbefore : s.before.head? = some c) :
    s.AtOperand where
  gap_ne := hgap
  name_eq := by
    refine hname.imp_right fun h => ?_
    obtain ⟨more, hmore⟩ := List.head?_eq_some_iff.1 h
    exact ⟨c, more, hmore, hc⟩
  before_eq := by
    obtain ⟨more, hmore⟩ := List.head?_eq_some_iff.1 hbefore
    exact ⟨c, more, hmore, List.mem_cons_of_mem _ hc⟩

/-- Behind an operator that was copied an operand is next, and the operator is in its name. -/
theorem atOperand_past (s : Spacer) (hc : c ∈ operators) : (s.past c).AtOperand := by
  refine atOperand_of_operator hc nofun (.inr ?_) rfl
  obtain ⟨-, hspace, hcomma⟩ := ne_of_mem_operators hc
  rw [past, nameWith, if_neg (not_or.2 ⟨hspace, hcomma⟩)]
  rfl

/-- A character of arithmetic inside of a math function gets spaces if it is an operator, and what
    follows is read as an operand. -/
theorem goes_operator {seen : Bool} {margin : Text} (hin : s.inMath = true) (hgap : s.gap ≠ .due)
    (hc : c ∈ operators) (hseen : ∀ k, isOperator s.before c (t ++ k) = seen)
    (hmargin : margin = if seen then [' '] else [])
    (hrest : ∀ {s : Spacer}, s.inMath = true → s.AtOperand → ∃ s', s.Goes t out s') :
    ∃ s', s.Goes (c :: t) (margin ++ c :: margin ++ out) s' := by
  rw [hmargin]
  -- a seen operator gets its spaces from the step itself, and any other character is copied
  cases seen with
  | true =>
    have hstep : ∀ k, s.step c (t ++ k) = ([' ', c, ' '], _) :=
      fun k => step_eq_space hin (hseen k)
    obtain ⟨s', hgoes⟩ := hrest (s := ⟨s.enclosing, [], c :: s.before, .written⟩) hin
      (atOperand_of_operator hc nofun (.inl rfl) rfl)
    exact ⟨s', .cons hstep rfl rfl hgoes⟩
  | false =>
    obtain ⟨hparens, hspace, -⟩ := ne_of_mem_operators hc
    have hstep : ∀ k, s.step c (t ++ k) = ([c], s.past c) :=
      fun k => step_eq_copy hgap hparens fun _ => ⟨hspace, hseen k⟩
    obtain ⟨s', hgoes⟩ := hrest (s := s.past c) hin (s.atOperand_past hc)
    exact ⟨s', .cons hstep rfl rfl hgoes⟩

/-- A parenthesis in front of an operand opens a group. -/
theorem AtOperand.isMathName_eq (h : s.AtOperand) : isMathName s.name.reverse = false := by
  -- the name is empty, or it ends in the operator that was copied
  rcases h.name_eq with hnil | ⟨c, more, hname, hc⟩
  · rw [hnil]
    decide
  · rw [hname, List.reverse_cons]
    exact isMathName_concat (.inr hc) _

end Spacer

/-! ## Operators behind operands -/

variable {c : Char}

/-- What decides over a `+` or `-` right behind a character. -/
theorem isOperator_cons (hc : c = '+' ∨ c = '-') {operand : Char}
    (hblank : Text.isBlank operand = false) (earlier rest : Text) :
    isOperator (operand :: earlier) c rest =
      ((Text.isAlphanumeric operand || operand == '%' || operand == ')')
        && !((operand == 'e' || operand == 'E') && earlier.head?.any Text.isDigitSign
          && rest.head?.any Text.isDigitSign)
        && !(Text.isLetter operand && rest.head?.any Text.isLetter)) := by
  have hne : ¬ (c = '*' ∨ c = '/') := by
    rcases hc with rfl | rfl <;> decide
  -- the character in front is no blank, so the search for the operand ends at it
  rw [isOperator, if_neg hne, if_pos hc, List.dropWhile_cons_of_neg (by rw [hblank]; nofun)]

/-- No `+` or `-` is an operator right behind an opening parenthesis, an operator or a point. -/
theorem isOperator_eq_false (hc : c = '+' ∨ c = '-') {d : Char}
    (hd : d = '(' ∨ d = '.' ∨ d ∈ operators) (earlier rest : Text) :
    isOperator (d :: earlier) c rest = false := by
  have hnone : Text.isBlank d = false ∧
      (Text.isAlphanumeric d || d == '%' || d == ')') = false := by
    rcases hd with rfl | rfl | hd
    · decide +kernel
    · decide +kernel
    · rcases mem_operators_iff.1 hd with rfl | rfl | rfl | rfl <;> decide +kernel
  obtain ⟨hblank, hno⟩ := hnone
  rw [isOperator_cons hc hblank, hno, Bool.false_and, Bool.false_and]

/-- Each `+` and `-` right behind a percent sign or a closing parenthesis is an operator. -/
theorem isOperator_of_closer (hc : c = '+' ∨ c = '-') {d : Char} (hd : d = '%' ∨ d = ')')
    (earlier rest : Text) : isOperator (d :: earlier) c rest = true := by
  have hall : Text.isBlank d = false ∧ (d == '%' || d == ')') = true ∧
      (d == 'e' || d == 'E') = false ∧ Text.isLetter d = false := by
    rcases hd with rfl | rfl <;> decide +kernel
  obtain ⟨hblank, hyes, hmark, hletter⟩ := hall
  -- the character is none of those that the exceptions speak of
  rw [isOperator_cons hc hblank, Bool.or_assoc, hyes, hmark, hletter]
  simp

/-- Each `+` and `-` right behind a digit is an operator. -/
theorem isOperator_of_isDecimal (hc : c = '+' ∨ c = '-') {d : Char}
    (hd : Text.isDecimal d = true) (earlier rest : Text) :
    isOperator (d :: earlier) c rest = true := by
  -- a digit is neither a mark of an exponent nor a letter
  have hmark : (d == 'e' || d == 'E') = false := by
    rw [← Bool.not_eq_true, Bool.or_eq_true, beq_iff_eq, beq_iff_eq]
    rintro (rfl | rfl) <;> exact absurd hd (by decide)
  rw [isOperator_cons hc (Text.isBlank_of_isDecimal hd), Text.isAlphanumeric_of_isDecimal hd,
    Text.isLetter_of_isDecimal hd, hmark]
  simp

/-- Right behind the mark of an exponent a `+` or `-` in front of a digit is an operator unless the
    mark is behind a digit. -/
theorem isOperator_of_mark (hc : c = '+' ∨ c = '-') {mark d e : Char}
    (hmark : mark = 'e' ∨ mark = 'E') (he : Text.isDecimal e = true) (earlier rest : Text) :
    isOperator (mark :: d :: earlier) c (e :: rest) = !Text.isDigitSign d := by
  have hfacts : Text.isBlank mark = false ∧ Text.isAlphanumeric mark = true ∧
      (mark == 'e' || mark == 'E') = true := by
    rcases hmark with rfl | rfl <;> decide
  obtain ⟨hblank, halphanumeric, hyes⟩ := hfacts
  rw [isOperator_cons hc hblank, halphanumeric, hyes]
  simp [Text.isDigitSign_of_isDecimal he, Text.isLetter_of_isDecimal he]

/-- Right behind a unit a `+` or `-` is an operator unless a letter comes next. -/
theorem isOperator_of_unit (hc : c = '+' ∨ c = '-') (u : UnitName) (earlier rest : Text) :
    isOperator (u.text.reverse ++ earlier) c rest = !rest.head?.any Text.isLetter := by
  have hletters : ∀ d ∈ u.text.reverse, Text.isAsciiLetter d = true :=
    fun d hd => u.letters d (List.mem_reverse.1 hd)
  obtain ⟨d, more, hreverse⟩ := List.exists_cons_of_ne_nil (List.reverse_ne_nil_iff.2 u.ne_nil)
  rw [hreverse] at hletters ⊢
  obtain ⟨hd, hmore⟩ := List.forall_mem_cons.1 hletters
  have hletter := Text.isLetter_of_isAsciiLetter hd
  -- an `e` at the end is behind another letter, so it is no mark of an exponent
  have hmark :
      ((d == 'e' || d == 'E') && (more ++ earlier).head?.any Text.isDigitSign) = false := by
    cases more with
    | nil =>
      have htext : u.text = [d] := List.reverse_eq_iff.1 hreverse
      have hne := u.ne_mark
      rw [htext] at hne
      simp only [ne_eq, List.cons.injEq, and_true] at hne
      simp [hne.1, hne.2]
    | cons e others =>
      have he := Text.isDigitSign_of_isAsciiLetter (hmore e List.mem_cons_self)
      simp [he]
  rw [List.cons_append, isOperator_cons hc (Text.isBlank_of_isAsciiLetter hd), hmark,
    Text.isAlphanumeric, hletter]
  simp

/-! ## Numerals -/

/-- The character of a sign is an operator. -/
theorem Sign.char_mem (sign : Sign) : sign.char ∈ operators := by
  cases sign <;> decide

/-- A sign is a plus or a minus. -/
theorem Sign.char_eq (sign : Sign) : sign.char = '+' ∨ sign.char = '-' := by
  cases sign
  · exact .inl rfl
  · exact .inr rfl

/-- A digit is part of a word. -/
theorem not_mem_punctuation_of_isDecimal (h : Text.isDecimal c = true) :
    c ∉ Spacer.punctuation := by
  have hnone : Spacer.punctuation.any Text.isDecimal = false := by decide +kernel
  exact fun hc => absurd h (List.any_eq_false.1 hnone c hc)

/-- A letter is part of a word. -/
theorem not_mem_punctuation_of_isAsciiLetter (h : Text.isAsciiLetter c = true) :
    c ∉ Spacer.punctuation := by
  have hnone : Spacer.punctuation.any Text.isAsciiLetter = false := by decide +kernel
  exact fun hc => absurd h (List.any_eq_false.1 hnone c hc)

/-- A measure is part of a word. -/
theorem not_mem_punctuation_of_mem_measure {m : Measure} (h : c ∈ m.text) :
    c ∉ Spacer.punctuation := by
  cases m with
  | plain => exact nomatch h
  | percent =>
    rw [List.mem_singleton.1 h]
    decide
  | unit name => exact not_mem_punctuation_of_isAsciiLetter (name.letters c h)

/-- A text of digits ends in a digit. -/
theorem exists_reverse_eq_of_decimal {ds : Text} (hne : ds ≠ [])
    (hdecimal : ∀ c ∈ ds, Text.isDecimal c = true) :
    ∃ d more, ds.reverse = d :: more ∧ Text.isDecimal d = true := by
  obtain ⟨d, more, hreverse⟩ := List.exists_cons_of_ne_nil (List.reverse_ne_nil_iff.2 hne)
  refine ⟨d, more, hreverse, hdecimal d (List.mem_reverse.1 ?_)⟩
  rw [hreverse]
  exact List.mem_cons_self

/-- An exponent ends in a digit. -/
theorem Exponent.exists_text_reverse_eq (x : Exponent) (margin : Text) :
    ∃ d more, (x.text margin).reverse = d :: more ∧ Text.isDecimal d = true := by
  obtain ⟨d, more, hreverse, hd⟩ := exists_reverse_eq_of_decimal x.digits_ne_nil x.digits_decimal
  -- the reversed digits come first, and the sign and the mark behind them are of no interest
  refine ⟨d, more ++ (x.mark :: x.sign.elim [] fun sign => margin ++ sign.char :: margin).reverse,
    ?_, hd⟩
  rw [text, List.reverse_append, hreverse, List.cons_append]

namespace Numeral

/-- The digits of a numeral are digits and a point. -/
theorem not_mem_punctuation_of_mem_digits {n : Numeral} (h : c ∈ n.digits) :
    c ∉ Spacer.punctuation := by
  rw [digits, List.mem_append] at h
  rcases h with hwhole | hfraction
  · exact not_mem_punctuation_of_isDecimal (n.whole_decimal c hwhole)
  · cases hpoint : n.fraction with
    | none =>
      rw [hpoint] at hfraction
      exact nomatch hfraction
    | some ds =>
      rw [hpoint] at hfraction
      rcases List.mem_cons.1 hfraction with rfl | hmem
      · decide
      · exact not_mem_punctuation_of_isDecimal (n.fraction_decimal ds hpoint c hmem)

/-- The digits of a numeral end in a digit unless its point is bare. -/
theorem exists_digits_reverse_eq (n : Numeral) :
    ∃ d more, n.digits.reverse = d :: more ∧
      if n.hasBarePoint then d = '.' else Text.isDecimal d = true := by
  rw [digits, hasBarePoint]
  -- the last character is that of the fraction if there is one, and else that of the whole part
  cases hpoint : n.fraction with
  | none =>
    have hwhole : n.whole ≠ [] := by simpa [hpoint] using n.has_digit
    obtain ⟨d, more, hreverse, hd⟩ := exists_reverse_eq_of_decimal hwhole n.whole_decimal
    exact ⟨d, more, by simpa using hreverse, by simpa using hd⟩
  | some ds =>
    cases ds with
    | nil => exact ⟨'.', n.whole.reverse, by simp, by simp⟩
    | cons e others =>
      obtain ⟨d, more, hreverse, hd⟩ :=
        exists_reverse_eq_of_decimal (List.cons_ne_nil e others) (n.fraction_decimal _ hpoint)
      refine ⟨d, more ++ '.' :: n.whole.reverse, ?_, by simpa using hd⟩
      rw [Option.elim_some, List.reverse_append, List.reverse_cons, hreverse]
      simp

/-- A numeral does not begin with a letter. -/
theorem head?_text_append (n : Numeral) (k : Text) :
    (n.text [] ++ k).head?.any Text.isLetter = false := by
  rw [text, digits]
  -- a sign, or else the first digit of the whole part, or else the point is in front
  cases n.sign with
  | some sign =>
    have hsign : Text.isLetter sign.char = false := by cases sign <;> decide +kernel
    exact hsign
  | none =>
    cases hwhole : n.whole with
    | cons d more =>
      have hd := n.whole_decimal d (by rw [hwhole]; exact List.mem_cons_self)
      exact Text.isLetter_of_isDecimal hd
    -- without a whole part there is a fraction, which begins with the point
    | nil =>
      obtain ⟨ds, hpoint, -⟩ := n.has_digit.resolve_left (not_not_intro hwhole)
      simp only [Option.mem_def.1 hpoint, Option.map_none, Option.toList_none, Option.elim_some,
        List.nil_append, List.cons_append, List.head?_cons, Option.any_some]
      decide +kernel

/-- Which `+` and `-` right behind a numeral are operators. -/
theorem isOperator_behind (n : Numeral) (hc : c = '+' ∨ c = '-') (earlier rest : Text) :
    isOperator ((n.text []).reverse ++ earlier) c rest =
      !(n.endsInPoint || n.endsInLetter && rest.head?.any Text.isLetter) := by
  rw [text, endsInPoint, endsInLetter, List.reverse_append, List.append_assoc]
  -- the measure is last; behind a plain number it is the exponent, or the digits if there is none
  cases n.measure with
  | percent =>
    have hseen := isOperator_of_closer hc (.inl rfl)
    cases n.exponent <;> exact hseen _ rest
  | unit name =>
    have hseen := isOperator_of_unit hc name
    cases n.exponent <;> exact hseen _ rest
  | plain =>
    rw [Measure.text, List.reverse_nil, List.nil_append, List.reverse_append, List.append_assoc]
    cases n.exponent with
    | none =>
      obtain ⟨d, more, hreverse, hd⟩ := n.exists_digits_reverse_eq
      rw [Option.elim_none, List.reverse_nil, List.nil_append, List.reverse_append, hreverse]
      simp only [List.cons_append, Bool.false_and, Bool.or_false]
      cases hbare : n.hasBarePoint with
      | true =>
        rw [hbare, if_pos rfl] at hd
        rw [hd]
        exact isOperator_eq_false hc (.inr (.inl rfl)) _ _
      | false =>
        rw [hbare, if_neg Bool.false_ne_true] at hd
        exact isOperator_of_isDecimal hc hd _ _
    | some x =>
      obtain ⟨d, more, hreverse, hd⟩ := x.exists_text_reverse_eq []
      rw [Option.elim_some, hreverse]
      exact isOperator_of_isDecimal hc hd _ _

end Numeral

/-! ## Reading operands -/

variable {s : Spacer}

/-- Digits are copied. -/
theorem Spacer.goes_decimal {ds : Text} (hgap : s.gap ≠ .due)
    (h : ∀ d ∈ ds, Text.isDecimal d = true) : ∃ s', s.Goes ds ds s' := by
  obtain ⟨s', hgoes, -⟩ := goes_word hgap fun d hd => not_mem_punctuation_of_isDecimal (h d hd)
  exact ⟨s', hgoes⟩

/-- Letters are copied, and are part of the name before a parenthesis. -/
theorem Spacer.goes_letters {t : Text} (hgap : s.gap ≠ .due)
    (h : ∀ c ∈ t, Text.isAsciiLetter c = true) :
    ∃ s', s.Goes t t s' ∧ s'.name = t.reverse ++ s.name :=
  goes_word hgap fun c hc => not_mem_punctuation_of_isAsciiLetter (h c hc)

/-- An exponent is copied behind a digit, and its sign gets spaces behind anything else. -/
theorem Exponent.goes (x : Exponent) (hin : s.inMath = true) (hgap : s.gap ≠ .due) {d : Char}
    {earlier : Text} (hbefore : s.before = d :: earlier) :
    ∃ s', s.Goes (x.text []) (x.text (if Text.isDigitSign d then [] else [' '])) s' := by
  -- the mark is a letter and is copied in any case
  have hmark : Text.isAsciiLetter x.mark = true := by
    rcases x.mark_eq with hmark | hmark <;> rw [hmark] <;> decide
  obtain ⟨s₁, hgoes, -⟩ := Spacer.goes_letters hgap (List.forall_mem_singleton.2 hmark)
  cases hsign : x.sign with
  | none =>
    obtain ⟨s', hdigits⟩ := Spacer.goes_decimal hgoes.gap_ne x.digits_decimal
    simp only [text, hsign, Option.elim_none]
    exact ⟨s', hgoes.trans hdigits⟩
  | some sign =>
    -- the mark is a letter, so only the exception for exponents keeps the sign from being seen
    have hseen : ∀ k, isOperator s₁.before sign.char (x.digits ++ k) = !Text.isDigitSign d := by
      intro k
      obtain ⟨e, more, hdigits⟩ := List.exists_cons_of_ne_nil x.digits_ne_nil
      have he : Text.isDecimal e = true :=
        x.digits_decimal e (by rw [hdigits]; exact List.mem_cons_self)
      rw [hgoes.before_eq, hbefore, hdigits]
      exact isOperator_of_mark sign.char_eq x.mark_eq he earlier (more ++ k)
    have hmargin : (if Text.isDigitSign d then [] else [' '] : Text) =
        if !Text.isDigitSign d then [' '] else [] := by
      cases Text.isDigitSign d <;> rfl
    obtain ⟨s', hsigned⟩ := Spacer.goes_operator (hgoes.inMath_eq.trans hin) hgoes.gap_ne
      sign.char_mem hseen hmargin fun _ h => Spacer.goes_decimal h.gap_ne x.digits_decimal
    simp only [text, hsign, Option.elim_some]
    exact ⟨s', hgoes.trans hsigned⟩

/-- A sign in front of an operand is copied. -/
theorem Spacer.AtOperand.goes_sign (h : s.AtOperand) (sign : Option Sign) :
    ∃ s', s.Goes (sign.map Sign.char).toList (sign.map Sign.char).toList s' := by
  -- in front of an operand is no operand, so no sign is seen as an operator
  cases sign with
  | none => exact ⟨s, .refl h.gap_ne⟩
  | some sign =>
    obtain ⟨d, earlier, hbefore, hd⟩ := h.before_eq
    obtain ⟨hparens, hspace, -⟩ := ne_of_mem_operators sign.char_mem
    have hmem : d = '(' ∨ d = '.' ∨ d ∈ operators := (List.mem_cons.1 hd).imp_right .inr
    have hstep : ∀ k, s.step sign.char ([] ++ k) = ([sign.char], s.past sign.char) := by
      intro k
      refine step_eq_copy h.gap_ne hparens fun _ => ⟨hspace, ?_⟩
      rw [hbefore]
      exact isOperator_eq_false sign.char_eq hmem earlier _
    exact ⟨s.past sign.char, .cons hstep rfl rfl (.refl nofun)⟩

/-- Inside a math function a numeral is copied but for a loose exponent. -/
theorem Numeral.goes (n : Numeral) (hin : s.inMath = true) (h : s.AtOperand) :
    ∃ s', s.Goes (n.text []) n.spacedText s' := by
  -- part by part: sign, digits, exponent and measure, each behind the spacer of the one before
  obtain ⟨s₁, hsign⟩ := h.goes_sign n.sign
  obtain ⟨s₂, hdigits, -⟩ :=
    Spacer.goes_word hsign.gap_ne fun c hc => n.not_mem_punctuation_of_mem_digits hc
  -- an exponent is copied unless a bare point is in front of it, which is no digit
  have hexponent : ∃ s₃, s₂.Goes (n.exponent.elim [] (Exponent.text []))
      (n.exponent.elim [] (Exponent.text (if n.hasBarePoint then [' '] else []))) s₃ := by
    cases n.exponent with
    | none => exact ⟨s₂, .refl hdigits.gap_ne⟩
    | some x =>
      obtain ⟨d, more, hreverse, hd⟩ := n.exists_digits_reverse_eq
      have hbefore : s₂.before = d :: (more ++ s₁.before) := by
        rw [hdigits.before_eq, hreverse]
        rfl
      have hin₂ : s₂.inMath = true := hdigits.inMath_eq.trans (hsign.inMath_eq.trans hin)
      have hdigit : Text.isDigitSign d = !n.hasBarePoint := by
        cases hbare : n.hasBarePoint with
        | true =>
          rw [hbare, if_pos rfl] at hd
          rw [hd]
          decide +kernel
        | false =>
          rw [hbare, if_neg Bool.false_ne_true] at hd
          exact Text.isDigitSign_of_isDecimal hd
      have hgoes := x.goes hin₂ hdigits.gap_ne hbefore
      rw [hdigit] at hgoes
      cases hbare : n.hasBarePoint <;> rw [hbare] at hgoes <;> exact hgoes
  obtain ⟨s₃, hexponent⟩ := hexponent
  obtain ⟨s', hmeasure, -⟩ :=
    Spacer.goes_word hexponent.gap_ne fun c hc => not_mem_punctuation_of_mem_measure hc
  exact ⟨s', ((hsign.trans hdigits).trans hexponent).trans hmeasure⟩

/-- A reference is copied. -/
theorem Reference.goes (r : Reference) (hgap : s.gap ≠ .due) : ∃ s', s.Goes r.text r.text s' := by
  obtain ⟨s₁, hvar, hname⟩ := Spacer.goes_letters (t := "var".toList) hgap
    (List.all_eq_true.1 (by decide))
  -- an operator that was not seen still stands in the name in front of `var`
  have hmath : isMathName s₁.name.reverse = false := by
    have hsplit : s₁.name.reverse = (s.name.reverse ++ ['v', 'a']) ++ ['r'] := by
      rw [hname]
      simp
    rw [hsplit]
    exact isMathName_concat (.inl rfl) _
  have hout : s₁.opened.inMath = false := by
    rw [Spacer.inMath, Spacer.opened, hmath]
    rfl
  -- inside of the parentheses no operator is seen, whatever the name
  have hparens : ∀ c ∈ '-' :: '-' :: r.name, c ≠ '(' ∧ c ≠ ')' := by
    rw [List.forall_mem_cons, List.forall_mem_cons]
    exact ⟨by decide, by decide, r.no_parentheses⟩
  obtain ⟨s₂, hinner⟩ := Spacer.goes_outside hout s₁.opened_gap_ne hparens
  obtain ⟨s', hcall⟩ := Spacer.goes_parenthesised hvar.gap_ne hinner
  exact ⟨s', hvar.trans hcall⟩

/-! ### Texts without parentheses -/

/-- What is part of a word is no parenthesis. -/
theorem ne_parentheses_of_not_mem_punctuation (h : c ∉ Spacer.punctuation) :
    c ≠ '(' ∧ c ≠ ')' := by
  constructor <;> (rintro rfl; exact h (by decide))

/-- An exponent has no parenthesis. -/
theorem Exponent.no_parentheses (x : Exponent) : ∀ c ∈ x.text [], c ≠ '(' ∧ c ≠ ')' := by
  rw [text, List.forall_mem_append, List.forall_mem_cons]
  refine ⟨⟨?_, ?_⟩, ?_⟩
  · rcases x.mark_eq with hmark | hmark <;> rw [hmark] <;> decide
  · cases x.sign with
    | none => exact List.forall_mem_nil _
    | some sign => exact List.forall_mem_singleton.2 (ne_of_mem_operators sign.char_mem).1
  · intro c hc
    exact ne_parentheses_of_not_mem_punctuation
      (not_mem_punctuation_of_isDecimal (x.digits_decimal c hc))

/-- A numeral has no parenthesis. -/
theorem Numeral.no_parentheses (n : Numeral) : ∀ c ∈ n.text [], c ≠ '(' ∧ c ≠ ')' := by
  rw [text, List.forall_mem_append, List.forall_mem_append, List.forall_mem_append]
  refine ⟨⟨⟨?_, ?_⟩, ?_⟩, ?_⟩
  · cases n.sign with
    | none => exact List.forall_mem_nil _
    | some sign => exact List.forall_mem_singleton.2 (ne_of_mem_operators sign.char_mem).1
  · exact fun c hc =>
      ne_parentheses_of_not_mem_punctuation (not_mem_punctuation_of_mem_digits hc)
  · cases n.exponent with
    | none => exact List.forall_mem_nil _
    | some x => exact x.no_parentheses
  · exact fun c hc =>
      ne_parentheses_of_not_mem_punctuation (not_mem_punctuation_of_mem_measure hc)

/-! ## Expressions -/

/-- The character of an operator is an operator. -/
theorem Operator.char_mem (op : Operator) : op.char ∈ operators := by
  cases op <;> decide

/-- Text in parentheses is copied where they open no math function, if it is copied outside of
    math functions. -/
theorem Spacer.AtOperand.goes_group {t : Text} (h : s.AtOperand)
    (hinner : ∀ {s : Spacer}, s.inMath = false → s.AtOperand → ∃ s', s.Goes t t s') :
    ∃ s', s.Goes ('(' :: (t ++ [')'])) ('(' :: (t ++ [')'])) s' := by
  -- no math function is called by a group, so operators inside are not seen
  have hout : s.opened.inMath = false := by
    rw [inMath, opened, h.isMathName_eq]
    rfl
  obtain ⟨s₁, hgoes⟩ := hinner hout (atOperand_opened s)
  exact goes_parenthesised h.gap_ne hgoes

namespace Expression

/-- Outside of math functions an expression is copied. -/
theorem goes_outside (e : Expression) (hout : s.inMath = false) (h : s.AtOperand) :
    ∃ s', s.Goes (e.text []) (e.text []) s' := by
  -- on the expression; a group inside is again outside of math functions
  induction e generalizing s with
  | numeral n => exact Spacer.goes_outside hout h.gap_ne n.no_parentheses
  | reference r => exact r.goes h.gap_ne
  | group inner ih => exact h.goes_group fun hout h => ih hout h
  | binary left op right ihl ihr =>
    obtain ⟨s₁, hleft⟩ := ihl hout h
    have hout₁ : s₁.inMath = false := hleft.inMath_eq.trans hout
    have hstep : ∀ k, s₁.step op.char (right.text [] ++ k) = ([op.char], s₁.past op.char) :=
      fun k => Spacer.step_eq_copy hleft.gap_ne (ne_of_mem_operators op.char_mem).1
        fun hin => absurd (hin.symm.trans hout₁) nofun
    obtain ⟨s', hright⟩ := ihr (s := s₁.past op.char) hout₁ (s₁.atOperand_past op.char_mem)
    rw [text, List.append_assoc]
    exact ⟨s', hleft.trans (.cons hstep rfl rfl hright)⟩

/-- Which `+` and `-` right behind an expression are operators. -/
theorem isOperator_behind (e : Expression) (hc : c = '+' ∨ c = '-') (earlier rest : Text) :
    isOperator ((e.text []).reverse ++ earlier) c rest =
      !(e.endsInPoint || e.endsInLetter && rest.head?.any Text.isLetter) := by
  -- on the right spine: the operand that comes last decides
  induction e generalizing earlier with
  | numeral n => exact n.isOperator_behind hc earlier rest
  | reference r =>
    have hreverse : r.text.reverse = ')' :: ("var(--".toList ++ r.name).reverse :=
      List.reverse_concat
    rw [text, hreverse]
    exact isOperator_of_closer hc (.inr rfl) _ rest
  | group inner ih =>
    rw [text, List.reverse_cons, List.reverse_concat]
    exact isOperator_of_closer hc (.inr rfl) _ rest
  | binary left op right ihl ihr =>
    rw [text, List.reverse_append, List.append_assoc]
    exact ihr _

/-- Whether an expression opens in a letter is seen from its first character. -/
theorem head?_text_append (e : Expression) (k : Text) :
    (e.text [] ++ k).head?.any Text.isLetter = e.opensInLetter := by
  -- on the left spine: the operand that comes first decides
  induction e generalizing k with
  | numeral n => exact n.head?_text_append k
  | reference r =>
    have hletter : Text.isLetter 'v' = true := Text.isLetter_of_isAlpha (by decide)
    exact hletter
  | group inner ih =>
    have hletter : Text.isLetter '(' = false := by decide +kernel
    simp only [text, opensInLetter, List.cons_append, List.head?_cons, Option.any_some]
    exact hletter
  | binary left op right ihl ihr =>
    rw [text, List.append_assoc, List.append_assoc]
    exact ihl _

/-- Whether the operator of a binary expression is seen as one. -/
theorem isOperator_between (left right : Expression) (op : Operator) (earlier k : Text) :
    isOperator ((left.text []).reverse ++ earlier) op.char (right.text [] ++ k) =
      !left.isHidden op right := by
  -- plus and minus look around, times and division do not
  have hsign : op.isSign = true → op.char = '+' ∨ op.char = '-' := by
    cases op <;> decide
  have hother : op.isSign = false → op.char = '*' ∨ op.char = '/' := by
    cases op <;> decide
  rw [isHidden]
  cases hop : op.isSign with
  | true => rw [isOperator_behind left (hsign hop), head?_text_append, Bool.true_and]
  | false =>
    rw [isOperator, if_pos (hother hop)]
    rfl

/-- Inside a math function an expression comes out spaced. -/
theorem goes (e : Expression) (hin : s.inMath = true) (h : s.AtOperand) :
    ∃ s', s.Goes (e.text []) e.spacedText s' := by
  -- on the expression; only the operators on the top level are met by a spacer in a math function
  induction e generalizing s with
  | numeral n => exact n.goes hin h
  | reference r => exact r.goes h.gap_ne
  | group inner ih => exact h.goes_group fun hout h => inner.goes_outside hout h
  | binary left op right ihl ihr =>
    obtain ⟨s₁, hleft⟩ := ihl hin h
    -- what the operator is depends on both expressions, but on nothing behind the right one
    have hseen : ∀ k, isOperator s₁.before op.char (right.text [] ++ k) =
        !left.isHidden op right := by
      intro k
      rw [hleft.before_eq]
      exact isOperator_between left right op s.before k
    have hmargin : (if left.isHidden op right then [] else [' '] : Text) =
        if !left.isHidden op right then [' '] else [] := by
      cases left.isHidden op right <;> rfl
    obtain ⟨s', hright⟩ := Spacer.goes_operator (hleft.inMath_eq.trans hin) hleft.gap_ne
      op.char_mem hseen hmargin fun hin h => ihr hin h
    rw [text, spacedText, List.append_assoc (left.text []), List.append_assoc left.spacedText]
    exact ⟨s', hleft.trans hright⟩

end Expression

/-- What comes out of a text in a call of `calc`, if it is read as an expression is. -/
theorem spaceOperators_call {t out : Text}
    (h : ∀ {s : Spacer}, s.inMath = true → s.AtOperand → ∃ s', s.Goes t out s') :
    spaceOperators ("calc".toList ++ '(' :: (t ++ [')'])) =
      "calc".toList ++ '(' :: (out ++ [')']) := by
  have hcalls : callsMath ("calc".toList ++ '(' :: (t ++ [')'])) = true := by
    refine List.any_eq_true.2 ⟨"calc".toList, by decide, Text.occurs_iff.2 ?_⟩
    exact ⟨[], t ++ [')'], by simp⟩
  -- the name is copied and recognised at the parenthesis
  obtain ⟨s₁, hname, hs₁⟩ := Spacer.goes_letters (s := .start) (t := "calc".toList) nofun
    (List.all_eq_true.1 (by decide))
  have hmath : isMathName ("calc".toList.reverse ++ Spacer.start.name).reverse = true := by decide
  have hin : s₁.opened.inMath = true := by
    rw [Spacer.inMath, Spacer.opened, hs₁, hmath]
    rfl
  obtain ⟨s₂, hinner⟩ := h hin s₁.atOperand_opened
  -- no space is due at the end of the text, so nothing is written behind it
  obtain ⟨s', hcall⟩ := Spacer.goes_parenthesised hname.gap_ne hinner
  have hgoes := hname.trans hcall
  have hrun := hgoes.run_append []
  rw [List.append_nil, Spacer.run, Spacer.flush_eq_nil hgoes.gap_ne, List.append_nil] at hrun
  rw [spaceOperators, if_pos hcalls]
  exact hrun

/-- An expression in a call of `calc`, written without spaces, comes out as its spaced text.  Spaces
    are then around all operators, and nowhere else, exactly if no operator is inside of a group,
    none is a `+` or `-` behind a bare point or between a unit and a reference, and no exponent with
    a sign is behind a bare point. -/
theorem spaceOperators_calc (e : Expression) :
    spaceOperators ("calc(".toList ++ e.text [] ++ [')']) =
      "calc(".toList ++ e.spacedText ++ [')'] ∧
    (spaceOperators ("calc(".toList ++ e.text [] ++ [')']) =
        "calc(".toList ++ e.text [' '] ++ [')'] ↔ e.isFullySpaced = true) := by
  have hcall : spaceOperators ("calc(".toList ++ e.text [] ++ [')']) =
      "calc(".toList ++ e.spacedText ++ [')'] :=
    spaceOperators_call fun hin h => e.goes hin h
  refine ⟨hcall, ?_⟩
  rw [hcall, List.append_left_inj, List.append_right_inj]
  exact e.spacedText_eq_iff

/-- The operator inside of the group and the one in front of the reference are left out. -/
example : spaceOperators "calc((1px+2px)*3-1e-2rem+var(--a-b))".toList =
    "calc((1px+2px) * 3 - 1e-2rem+var(--a-b))".toList := by
  decide +kernel

end UtilityClass.Value
