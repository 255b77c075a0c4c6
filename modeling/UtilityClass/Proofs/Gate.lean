import UtilityClass.Gate

/-!
# What the gate looks at

The gate decides over the body of a candidate alone.  `Body.verdict` is its decision as a function
of the body; every other field of the candidate is carried along.

## Key results

- `verdict_eq_some_iff`: a body that is let through comes out with its canonical value
- `judge_answer`: the answer to a candidate is the verdict on its body, put back in place
- `judge_calls_congr`: candidates with the same body take the same calls
- `parse_eq_some_iff` / `parse_eq_error_iff`: the answer to a token, by the candidate that it spells
- `verdict_standard_eq_some_iff`: what the library's own judges make of a body
-/

namespace UtilityClass

variable {ε : Type}

/-- Answers and failures are told apart as their contents are. -/
instance decidableEqExcept {α : Type} [DecidableEq ε] [DecidableEq α] :
    DecidableEq (Except ε α)
  | .ok a, .ok b => decidable_of_iff (a = b) (by simp)
  | .error e, .error f => decidable_of_iff (e = f) (by simp)
  | .ok _, .error _ => .isFalse (by simp)
  | .error _, .ok _ => .isFalse (by simp)

/-! ## Traced answers -/

namespace Traced

variable {α β : Type}

/-- Going on with an answer goes on with the answer beside the trace. -/
theorem andThen_answer (x : Traced ε α) (f : α → Traced ε β) :
    (x.andThen f).answer = x.answer.bind fun a => (f a).answer := by
  unfold andThen
  cases x.answer <;> rfl

/-- Going on with an answer adds the calls of the second part. -/
theorem andThen_calls (x : Traced ε α) (f : α → Traced ε β) :
    (x.andThen f).calls = x.calls ++ (x.answer.toOption.map fun a => (f a).calls).getD [] := by
  unfold andThen
  cases x.answer <;> simp [Except.toOption]

end Traced

/-! ## Verdicts on bodies -/

namespace Body

/-- The body with another value; a plain name has none. -/
def withValue (b : Body) (value : Text) : Body :=
  match b with
  | utility name => utility name
  | property name _ => property name value
  | custom name _ tag => custom name value tag

/-- Whether the value of a body may stand.  The name of a declaration opens like a property name,
    or else the judge accepts the declaration; and the whole does not look like an address. -/
def mayStand (k : Collaborators ε) : Body → Except ε Bool
  | utility _ => .ok true
  | property name value =>
    (if Property.opensName name then .ok true else k.acceptsDeclaration name value).map
      fun accepted => accepted && !Uri.isUriLike (name ++ ':' :: value)
  | custom _ value _ => k.acceptsValue value

/-- What the gate makes of a body: nothing, or the body with the canonical form of its value. -/
def verdict (k : Collaborators ε) (b : Body) : Except ε (Option Body) :=
  match mayStand k b, b.value? with
  | .error e, _ => .error e
  | .ok false, _ => .ok none
  | .ok true, none => .ok (some b)
  | .ok true, some value => (k.canonical value).map fun v => some (b.withValue v)

/-- A body that is let through comes out with its canonical value, or unchanged if it has none. -/
theorem verdict_eq_some_iff {k : Collaborators ε} {b out : Body} :
    b.verdict k = .ok (some out) ↔
      b.mayStand k = .ok true ∧
        ((b.value? = none ∧ out = b) ∨
          ∃ written value, b.value? = some written ∧ k.canonical written = .ok value ∧
            out = b.withValue value) := by
  -- by the two things that the verdict looks at
  unfold verdict
  cases b.mayStand k with
  | error e => simp
  | ok stands =>
    cases stands with
    | false => simp
    | true =>
      cases b.value? with
      | none => simp [eq_comm (a := out)]
      | some written =>
        cases hcan : k.canonical written <;> simp [hcan, Except.map, eq_comm (a := out)]

end Body

namespace Candidate

/-- An accepted candidate carries the canonical form of its value. -/
theorem accept_answer (k : Collaborators ε) (value : Text) (bodyWith : Text → Body)
    (c : Candidate) :
    (accept k value bodyWith c).answer =
      (k.canonical value).map fun v => some { c with body := bodyWith v } := rfl

/-- A name that opens like a property name is not put to the judge. -/
theorem declarationAccepted_answer (k : Collaborators ε) (name value : Text) :
    (declarationAccepted k name value).answer =
      if Property.opensName name then .ok true else k.acceptsDeclaration name value := by
  unfold declarationAccepted
  split <;> rfl

/-- The answer to a candidate is the verdict on its body, put back in place. -/
theorem judge_answer (k : Collaborators ε) (c : Candidate) :
    (judge k c).answer = (c.body.verdict k).map (Option.map fun b => { c with body := b }) := by
  unfold judge Body.verdict
  -- by the kind of the body, and then by what its judge says
  cases hbody : c.body with
  | utility name =>
    show Except.ok (some c) = Except.ok (some { c with body := .utility name })
    rw [← hbody]
  | property name value =>
    simp only [Traced.andThen_answer, declarationAccepted_answer, Body.mayStand, Body.value?]
    cases (if Property.opensName name then .ok true else k.acceptsDeclaration name value) with
    | error e => rfl
    | ok accepted =>
      cases accepted with
      | false => rfl
      | true =>
        by_cases huri : Uri.isUriLike (name ++ ':' :: value) = true
        · simp [huri, reject, Except.bind, Except.map]
        · cases hcan : k.canonical value <;>
            simp [huri, hcan, accept_answer, Except.bind, Except.map, Body.withValue]
  | custom name value tag =>
    simp only [Traced.andThen_answer, Traced.ask, Body.mayStand, Body.value?]
    cases k.acceptsValue value with
    | error e => rfl
    | ok accepted =>
      cases accepted with
      | false => rfl
      | true => cases hcan : k.canonical value <;>
          simp [hcan, accept_answer, Except.bind, Except.map, Body.withValue]

/-- Candidates with the same body take the same calls. -/
theorem judge_calls_congr (k : Collaborators ε) {c d : Candidate} (h : c.body = d.body) :
    (judge k c).calls = (judge k d).calls := by
  unfold judge
  -- a rejection names the token, but takes no call
  rw [h]
  cases d.body with
  -- the calls in front are the same, and it is left to compare those that follow an answer
  | utility name => rfl
  | property name value =>
    simp only [Traced.andThen_calls]
    congr 3
    funext accepted
    by_cases huri : Uri.isUriLike (name ++ ':' :: value) = true <;>
      cases accepted <;> simp [huri, reject, accept, Traced.map, Traced.ask]
  | custom name value tag =>
    simp only [Traced.andThen_calls]
    congr 3
    funext accepted
    cases accepted <;> simp [reject, accept, Traced.map, Traced.ask]

/-- The answer to a token: nothing if it spells no candidate, else the verdict on the body of the
    candidate that it spells. -/
theorem parse_answer (k : Collaborators ε) (config : Config) (raw : Text) :
    (parse k config raw).answer =
      match ofToken config raw with
      | .error _ => .ok none
      | .ok c => (c.body.verdict k).map (Option.map fun b => { c with body := b }) := by
  unfold parse
  cases ofToken config raw with
  | error reason => rfl
  | ok c => exact judge_answer k c

/-- An accepted token spells a candidate; the verdict on the body of that candidate is put back in
    place. -/
theorem parse_eq_some_iff {k : Collaborators ε} {config : Config} {raw : Text} {c : Candidate} :
    (parse k config raw).answer = .ok (some c) ↔
      ∃ source, ofToken config raw = .ok source ∧
        ∃ body, source.body.verdict k = .ok (some body) ∧ c = { source with body := body } := by
  rw [parse_answer]
  cases ofToken config raw with
  | error reason => simp
  | ok source =>
    cases hverdict : source.body.verdict k with
    | error e => simp [hverdict, Except.map]
    | ok found => cases found <;> simp [hverdict, Except.map, eq_comm (a := c)]

/-- A token has no answer exactly if there is no verdict on the body that it spells. -/
theorem parse_eq_error_iff {k : Collaborators ε} {config : Config} {raw : Text} {e : ε} :
    (parse k config raw).answer = .error e ↔
      ∃ source, ofToken config raw = .ok source ∧ source.body.verdict k = .error e := by
  rw [parse_answer]
  cases ofToken config raw with
  | error reason => simp
  | ok source => cases hverdict : source.body.verdict k <;> simp [hverdict, Except.map]

end Candidate

/-! ## The library's own judges -/

namespace Body

/-- Whether the library's own judges let the value of a body stand. -/
def passes : Body → Bool
  | utility _ => true
  | property name value =>
    (Property.opensName name || Property.isDeclaration name value) &&
      !Uri.isUriLike (name ++ ':' :: value)
  | custom _ value _ => Value.isValid value

/-- The library's own judges always say whether a value may stand. -/
theorem mayStand_standard (b : Body) : b.mayStand .standard = .ok b.passes := by
  cases b with
  | utility name => rfl
  | property name value =>
    unfold mayStand passes
    cases hopens : Property.opensName name <;> simp [hopens, Collaborators.standard, Except.map]
  | custom name value tag => rfl

/-- Of the library's own judges only the one for canonical forms can fail. -/
theorem verdict_standard (b : Body) :
    b.verdict .standard =
      if b.passes = true then
        match b.value? with
        | none => .ok (some b)
        | some value => (Value.canonical value).map fun v => some (b.withValue v)
      else .ok none := by
  unfold verdict
  rw [mayStand_standard]
  cases b.passes with
  | false => rfl
  | true => cases b.value? <;> rfl

/-- A body that the library's own judges let through comes out with its canonical value. -/
theorem verdict_standard_eq_some_iff {b out : Body} :
    b.verdict .standard = .ok (some out) ↔
      b.passes = true ∧
        ((b.value? = none ∧ out = b) ∨
          ∃ written value, b.value? = some written ∧ Value.canonical written = .ok value ∧
            out = b.withValue value) := by
  rw [verdict_eq_some_iff, mayStand_standard, Except.ok.injEq]
  rfl

/-- There is no verdict exactly if the value of a body that is let through has no canonical form. -/
theorem verdict_standard_eq_error_iff {b : Body} {fault : Value.Fault} :
    b.verdict .standard = .error fault ↔
      b.passes = true ∧ ∃ written, b.value? = some written ∧
        Value.canonical written = .error fault := by
  rw [verdict_standard]
  cases b.passes with
  | false => simp
  -- a body that passes has no verdict only where its value has no canonical form
  | true =>
    cases b.value? with
    | none => simp
    | some written => cases hcan : Value.canonical written <;> simp [hcan, Except.map]

end Body

end UtilityClass
