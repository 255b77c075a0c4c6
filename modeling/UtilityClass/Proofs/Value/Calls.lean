import Mathlib.Data.List.Forall2
import UtilityClass.Proofs.Value.Arithmetic

/-!
# Spacing stays inside of math calls

Parentheses cut a text into parts, and each part stands in the call of the innermost parenthesis
that is open there.  Spacing operators keeps the parentheses, and so the number of the parts; it
changes no part that stands outside of math calls, and in the others nothing but spaces.

## Key results

- `Spacer.unspaced_run`: nothing but spaces comes or goes
- `Calls.respaced_run`: what becomes of the parts of a text
- `spaceOperators_respaces_math_calls`: spacing changes nothing but spaces inside of math calls
-/

namespace UtilityClass.Value

/-- The text without its spaces. -/
def unspaced (t : Text) : Text := t.filter (· ≠ ' ')

/-- Two texts lose their spaces one by one. -/
theorem unspaced_append (t u : Text) : unspaced (t ++ u) = unspaced t ++ unspaced u :=
  List.filter_append t u

/-- Nothing is left of a gap without its spaces. -/
theorem unspaced_flush (gap : Gap) : unspaced gap.flush = [] := by
  cases gap <;> rfl

namespace Spacer

variable {s : Spacer}

/-- At a step nothing but spaces comes or goes. -/
theorem unspaced_step (h : s.Settled) (c : Char) (rest : Text) :
    unspaced (s.step c rest).1 = unspaced [c] := by
  -- the space of a gap, the spaces around an operator and a blank that is kept back: none of them
  -- is left
  rcases step_cases h c rest with ⟨hout, -⟩ | ⟨-, hout, -⟩ | ⟨rfl, hout, -⟩
  · rw [hout, unspaced_append, unspaced_flush, List.nil_append]
  · have hsides : [' ', c, ' '] = [' '] ++ ([c] ++ [' ']) := rfl
    have hspace : unspaced [' '] = [] := rfl
    rw [hout, hsides, unspaced_append, unspaced_append, hspace, List.nil_append, List.append_nil]
  · rw [hout]
    rfl

/-- Nothing but spaces comes or goes. -/
theorem unspaced_run (h : s.Settled) (t : Text) : unspaced (s.run t) = unspaced t := by
  -- step by step, with the gap at the end
  induction t generalizing s with
  | nil => exact unspaced_flush s.gap
  | cons c rest ih =>
    rw [run, unspaced_append, unspaced_step h, ih (settled_step s c rest), ← unspaced_append,
      List.singleton_append]

end Spacer

/-! ## Parts of a text -/

/-- Whether the character opens or closes a call. -/
def isParenthesis (c : Char) : Bool := c == '(' || c == ')'

/-- A character is no parenthesis if it is neither of the two. -/
theorem isParenthesis_eq_false_iff {c : Char} :
    isParenthesis c = false ↔ c ≠ '(' ∧ c ≠ ')' := by
  rw [isParenthesis, Bool.or_eq_false_iff, beq_eq_false_iff_ne, beq_eq_false_iff_ne]

/-- No parenthesis is in a gap. -/
theorem no_parenthesis_flush (gap : Gap) : ∀ c ∈ gap.flush, isParenthesis c = false := by
  cases gap with
  | due => exact List.forall_mem_singleton.2 rfl
  | none => exact List.forall_mem_nil _
  | written => exact List.forall_mem_nil _

/-- Parentheses are copied. -/
theorem Spacer.step_parenthesis {s : Spacer} {c : Char} (hc : isParenthesis c = true)
    (rest : Text) : (s.step c rest).1 = s.gap.flush ++ [c] := by
  rw [isParenthesis, Bool.or_eq_true, beq_iff_eq, beq_iff_eq] at hc
  rcases hc with rfl | rfl <;> rfl

/-- The parts of a text between its parentheses. -/
def parts (t : Text) : List Text := t.splitOnP isParenthesis

/-- A text without parentheses belongs to the first part of what follows. -/
theorem parts_append {t : Text} (h : ∀ c ∈ t, isParenthesis c = false) (u : Text) :
    parts (t ++ u) = (parts u).modifyHead (t ++ ·) := by
  -- each character goes in front of the first part of the rest
  induction t with
  | nil =>
    show parts u = (parts u).modifyHead id
    rw [List.modifyHead_id, id]
  | cons c rest ih =>
    obtain ⟨hc, hrest⟩ := List.forall_mem_cons.1 h
    have ih := ih hrest
    rw [parts] at ih
    rw [List.cons_append, parts, List.splitOnP_cons_eq_if_modifyHead, hc,
      if_neg Bool.false_ne_true, ih, List.modifyHead_modifyHead]
    rfl

/-- A parenthesis ends a part. -/
theorem parts_append_parenthesis {t : Text} (h : ∀ c ∈ t, isParenthesis c = false) {p : Char}
    (hp : isParenthesis p = true) (u : Text) : parts (t ++ p :: u) = t :: parts u :=
  List.splitOnP_append_cons_of_forall_mem h p hp u

/-- Every text has a first part. -/
theorem exists_parts_eq_cons (t : Text) : ∃ first more, parts t = first :: more :=
  List.exists_cons_of_ne_nil (List.splitOnP_ne_nil _ _)

/-! ## Calls -/

/-- The calls around a place in a text. -/
structure Calls where
  /-- What is written in front of each open parenthesis, innermost first. -/
  names : List Text
  /-- The characters since the last break, nearest first. -/
  name : Text
  /-- All characters in front of the place, nearest first. -/
  before : Text

namespace Calls

/-- The calls around the beginning of a text. -/
def start : Calls := ⟨[], [], []⟩

/-- What is written in front of the innermost open parenthesis, if one is open. -/
def caller? (p : Calls) : Option Text := p.names.head?

/-- Whether the innermost open parenthesis belongs to a math function. -/
def inMath (p : Calls) : Bool := p.caller?.any isMathName

/-- The calls around the place behind the character `c`, with `rest` to follow.  Spaces and commas
    break names, and so do the operators inside of a math function. -/
def step (p : Calls) (c : Char) (rest : Text) : Calls :=
  if c = '(' then ⟨p.name.reverse :: p.names, [], c :: p.before⟩
  else if c = ')' then ⟨p.names.tail, [], c :: p.before⟩
  else if c = ' ' ∨ c = ',' ∨ p.inMath = true ∧ isOperator p.before c rest = true then
    ⟨p.names, [], c :: p.before⟩
  else ⟨p.names, c :: p.name, c :: p.before⟩

/-- For each part of a text, what is written in front of the parenthesis that it stands in. -/
def callers (p : Calls) : Text → List (Option Text)
  | [] => [p.caller?]
  | c :: rest =>
    if isParenthesis c then p.caller? :: (p.step c rest).callers rest
    else (p.step c rest).callers rest

variable {p : Calls} {c : Char} {rest : Text}

/-- Only parentheses lead into other calls. -/
theorem caller?_step (hc : isParenthesis c = false) : (p.step c rest).caller? = p.caller? := by
  obtain ⟨hopen, hclose⟩ := isParenthesis_eq_false_iff.1 hc
  rw [step, if_neg hopen, if_neg hclose]
  split <;> rfl

/-- The first part stands in the call around the place. -/
theorem exists_callers_eq_cons (p : Calls) (t : Text) :
    ∃ more, p.callers t = p.caller? :: more := by
  induction t generalizing p with
  | nil => exact ⟨[], rfl⟩
  | cons c rest ih =>
    rw [callers]
    split
    · exact ⟨_, rfl⟩
    -- a character that is no parenthesis stays in the same call
    · next hc =>
      rw [Bool.not_eq_true] at hc
      have hcaller : (p.step c rest).caller? = p.caller? := caller?_step hc
      rw [← hcaller]
      exact ih (p.step c rest)

/-- Each part has a call around it. -/
theorem length_callers (p : Calls) (t : Text) : (p.callers t).length = (parts t).length := by
  -- a parenthesis adds one to both, and any other character to neither
  induction t generalizing p with
  | nil => rfl
  | cons c rest ih =>
    rw [callers, parts, List.splitOnP_cons_eq_if_modifyHead]
    split
    · rw [List.length_cons, List.length_cons, ih, parts]
    · rw [List.length_modifyHead, ih, parts]

/-! ## The spacer among the calls -/

/-- The spacer at a place in a text. -/
def spacer (p : Calls) (gap : Gap) : Spacer := ⟨p.names.map isMathName, p.name, p.before, gap⟩

/-- The spacer is in a math function where the calls say so. -/
theorem inMath_spacer (p : Calls) (gap : Gap) : (p.spacer gap).inMath = p.inMath := by
  rw [Spacer.inMath, spacer, inMath, caller?]
  cases p.names with
  | nil => rfl
  | cons name names => simp

/-- The spacer goes from place to place. -/
theorem step_spacer (p : Calls) (gap : Gap) (c : Char) (rest : Text) :
    ((p.spacer gap).step c rest).2 =
      (p.step c rest).spacer ((p.spacer gap).step c rest).2.gap := by
  -- both steps ask the same questions in the same order, up to what becomes of the gap
  have hbefore : (p.spacer gap).before = p.before := rfl
  rw [Spacer.step, step, inMath_spacer, hbefore]
  split
  · rfl
  · split
    · simp only [spacer, List.map_tail]
    · cases hin : p.inMath with
      | false =>
        simp only [Bool.false_eq_true, false_and, or_false, if_false, Spacer.nameWith]
        split <;> rfl
      | true =>
        simp only [true_and, if_true, Spacer.nameWith]
        cases hop : isOperator p.before c rest with
        | true =>
          simp only [or_true, if_true]
          rfl
        | false =>
          simp only [Bool.false_eq_true, or_false, if_false]
          by_cases hspace : c = ' '
          · simp only [hspace, true_or, if_true]
            rfl
          · simp only [hspace, false_or, if_false]
            split <;> rfl

/-! ## What becomes of the parts -/

/-- Whether spacing may write `out` for a part that stands in a call of `caller`: nothing but spaces
    differ, and those only in calls of math functions. -/
structure Respaced (caller : Option Text) (part out : Text) : Prop where
  unspaced_eq : unspaced out = unspaced part
  eq_outside : caller.any isMathName = false → out = part

/-- What is left as it is has changed nothing. -/
theorem Respaced.refl (caller : Option Text) (part : Text) : Respaced caller part part :=
  ⟨rfl, fun _ => rfl⟩

/-- Two pieces of a part are changed one by one. -/
theorem Respaced.append {caller : Option Text} {part part' out out' : Text}
    (h : Respaced caller part out) (h' : Respaced caller part' out') :
    Respaced caller (part ++ part') (out ++ out') where
  unspaced_eq := by rw [unspaced_append, unspaced_append, h.unspaced_eq, h'.unspaced_eq]
  eq_outside hout := by rw [h.eq_outside hout, h'.eq_outside hout]

/-- A space may be due at the end of a part of a math call alone. -/
theorem respaced_flush {gap : Gap} (h : (p.spacer gap).Settled) :
    Respaced p.caller? [] gap.flush where
  unspaced_eq := unspaced_flush gap
  eq_outside hout := by
    have hgap : gap = .none := h ((inMath_spacer p gap).trans hout)
    rw [hgap]
    rfl

/-- What is written for a character that is no parenthesis. -/
theorem respaced_step {gap : Gap} (h : (p.spacer gap).Settled) (hc : isParenthesis c = false)
    (rest : Text) :
    (∀ d ∈ ((p.spacer gap).step c rest).1, isParenthesis d = false) ∧
      Respaced p.caller? [c] ((p.spacer gap).step c rest).1 := by
  have hspaces := Spacer.unspaced_step h c rest
  -- a written character, an operator, or a blank that is kept back; only the first occurs outside
  -- of math calls
  rcases Spacer.step_kinds h c rest with ⟨next, hstep, -⟩ | ⟨hin, -, hstep⟩ | ⟨hin, -, hstep⟩
  · rw [hstep]
    refine ⟨List.forall_mem_append.2 ⟨no_parenthesis_flush gap, ?_⟩, ?_⟩
    · exact List.forall_mem_singleton.2 hc
    · exact (respaced_flush h).append (.refl _ [c])
  · -- an operator is spaced in a math call alone
    rw [hstep] at hspaces ⊢
    have hspace : isParenthesis ' ' = false := by decide
    refine ⟨by simp [hspace, hc], hspaces, fun hout => ?_⟩
    exact absurd (hin.symm.trans ((inMath_spacer p gap).trans hout)) nofun
  · rw [hstep] at hspaces ⊢
    refine ⟨nofun, hspaces, fun hout => ?_⟩
    exact absurd (hin.symm.trans ((inMath_spacer p gap).trans hout)) nofun

/-- The parts that are written, each against the part that is read and its call. -/
theorem respaced_run {gap : Gap} (h : (p.spacer gap).Settled) (t : Text) :
    List.Forall₂ (fun called out => Respaced called.1 called.2 out) ((p.callers t).zip (parts t))
      (parts ((p.spacer gap).run t)) := by
  -- on the text; the calls and the spacer go on from place to place together
  induction t generalizing p gap with
  | nil =>
    have hflush : parts (p.spacer gap).gap.flush = [gap.flush] :=
      List.splitOnP_eq_singleton (no_parenthesis_flush gap)
    rw [Spacer.run, hflush]
    exact .cons (respaced_flush h) .nil
  | cons c rest ih =>
    have hnext := (p.spacer gap).settled_step c rest
    rw [step_spacer] at hnext
    have hrest := ih hnext
    rw [← step_spacer] at hrest
    rw [Spacer.run, callers, parts, List.splitOnP_cons_eq_if_modifyHead, ← parts]
    cases hc : isParenthesis c with
    -- a parenthesis ends the part, which holds the gap and nothing else
    | true =>
      rw [if_pos rfl, if_pos rfl, Spacer.step_parenthesis hc, List.append_assoc,
        List.singleton_append, parts_append_parenthesis (no_parenthesis_flush _) hc]
      exact .cons (respaced_flush h) hrest
    | false =>
      -- the character and what is written for it belong to the first parts of what follows
      obtain ⟨hparts, hstep⟩ := respaced_step h hc rest
      rw [if_neg Bool.false_ne_true, if_neg Bool.false_ne_true, parts_append hparts]
      obtain ⟨more, hmore⟩ := exists_callers_eq_cons (p.step c rest) rest
      obtain ⟨part, others, hpart⟩ := exists_parts_eq_cons rest
      rw [hmore, hpart, caller?_step hc, List.zip_cons_cons] at hrest
      rw [hmore, hpart, caller?_step hc, List.modifyHead_cons, List.zip_cons_cons]
      obtain ⟨out, outs, hout, houts, heq⟩ := List.forall₂_cons_left_iff.1 hrest
      rw [heq]
      exact .cons (hstep.append hout) houts

/-- Each part may be written as it is. -/
theorem forall₂_respaced_self {callers : List (Option Text)} {ps : List Text}
    (h : callers.length = ps.length) :
    List.Forall₂ (fun called out => Respaced called.1 called.2 out) (callers.zip ps) ps := by
  induction callers generalizing ps with
  | nil =>
    rw [List.eq_nil_of_length_eq_zero h.symm]
    exact .nil
  | cons caller more ih =>
    cases ps with
    | nil => exact nomatch h
    | cons part others => exact .cons (.refl caller part) (ih (Nat.succ.inj h))

end Calls

/-- Spacing operators changes nothing but spaces. -/
theorem unspaced_spaceOperators (t : Text) : unspaced (spaceOperators t) = unspaced t := by
  rw [spaceOperators]
  split
  · exact Spacer.unspaced_run Spacer.settled_start t
  · rfl

/-- What is written with spaced operators was there before, spaces apart. -/
theorem mem_of_mem_spaceOperators {c : Char} {t : Text} (hc : c ≠ ' ')
    (h : c ∈ spaceOperators t) : c ∈ t := by
  have hout : c ∈ unspaced (spaceOperators t) := List.mem_filter.2 ⟨h, by simpa using hc⟩
  rw [unspaced_spaceOperators] at hout
  exact List.mem_of_mem_filter hout

/-- Spacing operators changes nothing but spaces: the parts between parentheses are as many as
    before, a part outside of math calls is as before, and in others nothing but spaces differ. -/
theorem spaceOperators_respaces_math_calls (t : Text) :
    unspaced (spaceOperators t) = unspaced t ∧
      (parts (spaceOperators t)).length = (parts t).length ∧
      (Calls.start.callers t).length = (parts t).length ∧
      List.Forall₂ (fun called out => Calls.Respaced called.1 called.2 out)
        ((Calls.start.callers t).zip (parts t)) (parts (spaceOperators t)) := by
  have hcallers := Calls.start.length_callers t
  have hparts : List.Forall₂ (fun called out => Calls.Respaced called.1 called.2 out)
      ((Calls.start.callers t).zip (parts t)) (parts (spaceOperators t)) := by
    have hstart : (Calls.start.spacer .none).Settled := Spacer.settled_start
    rw [spaceOperators]
    split
    · exact Calls.respaced_run hstart t
    · exact Calls.forall₂_respaced_self hcallers
  -- the parts are paired, so there are as many of them
  refine ⟨unspaced_spaceOperators t, ?_, hcallers, hparts⟩
  rw [← hparts.length_eq, List.length_zip, hcallers, Nat.min_self]

end UtilityClass.Value
