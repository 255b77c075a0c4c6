import UtilityClass.Proofs.Gate
import UtilityClass.Proofs.Candidate.Token

/-!
# What a token takes

A token that is read without a cache takes calls to the collaborators, and leaves a note if it is
rejected.  `requiredCalls` lists the calls from the body that the token spells: a question about the
value, unless there is none to ask, and the canonical form of a value that may stand.

## Key results

- `parse_calls`: a token takes the required calls in their order, also where one of them fails
- `parse_notes`: a rejected token is noted once, in words, and no other token is noted
-/

namespace UtilityClass

variable {ε : Type}

/-! ## Required calls -/

/-- What has to be asked about the value of a body.  A name that opens like a property name answers
    for its value. -/
def Body.question : Body → List Call
  | utility _ => []
  | property name value => if Property.opensName name then [] else [.declaration name value]
  | custom _ value _ => [.value value]

/-- The call for the canonical form of the value, if the value is there and may stand. -/
def Body.canonicalCall (k : Collaborators ε) (b : Body) : List Call :=
  match b.mayStand k, b.value? with
  | .ok true, some value => [.canonical value]
  | _, _ => []

/-- The calls that a body takes, in their order. -/
def Body.requiredCalls (k : Collaborators ε) (b : Body) : List Call :=
  b.question ++ b.canonicalCall k

namespace Candidate

/-- The calls that a token takes, in their order, on the values as they are written.  A token that
    spells no candidate takes none. -/
def requiredCalls (k : Collaborators ε) (config : Config) (raw : Text) : List Call :=
  match ofToken config raw with
  | .error _ => []
  | .ok c => c.body.requiredCalls k

/-- The question whether a property may stand is put to the judge at most once. -/
theorem declarationAccepted_calls (k : Collaborators ε) (name value : Text) :
    (declarationAccepted k name value).calls = (Body.property name value).question := by
  rw [declarationAccepted, Body.question]
  split <;> rfl

/-- A candidate takes the calls that its body requires. -/
theorem judge_calls (k : Collaborators ε) (c : Candidate) :
    (judge k c).calls = c.body.requiredCalls k := by
  unfold judge Body.requiredCalls Body.canonicalCall
  cases c.body with
  | utility name => rfl
  | property name value =>
    simp only [Traced.andThen_calls, declarationAccepted_calls, declarationAccepted_answer,
      Body.mayStand, Body.value?]
    congr 1
    -- a failed call and a rejection are followed by none
    cases (if Property.opensName name then .ok true else k.acceptsDeclaration name value) with
    | error e => rfl
    | ok accepted =>
      -- of an accepted declaration the gate still asks whether it looks like an address
      cases accepted with
      | false => rfl
      | true => cases Uri.isUriLike (name ++ ':' :: value) <;>
          simp [reject, accept, Traced.map, Traced.ask, Except.map, Except.toOption]
  | custom name value tag =>
    simp only [Traced.andThen_calls, Traced.ask, Body.question, Body.mayStand, Body.value?]
    congr 1
    -- the same for the judge of values, whose question is always put
    cases k.acceptsValue value with
    | error e => rfl
    | ok accepted => cases accepted <;> rfl

/-- A token takes the required calls, each once and in their order.  A call that fails is the
    last. -/
theorem parse_calls (k : Collaborators ε) (config : Config) (raw : Text) :
    (parse k config raw).calls = requiredCalls k config raw := by
  unfold parse requiredCalls
  cases ofToken config raw with
  | error reason => rfl
  | ok c => exact judge_calls k c

end Candidate

/-! ## Notes -/

/-- The notes that are put into words. -/
def Traced.messages {α : Type} (t : Traced ε α) : List Text := t.notes.filterMap Note.message?

/-- A token is noted exactly if it is rejected, and then once and in words. -/
def Traced.NotesRejection (raw : Text) (t : Traced ε (Option Candidate)) : Prop :=
  match t.answer with
  | .ok none => ∃ reason message, t.notes = [.rejected raw reason] ∧
      reason.message? raw = some message
  | _ => t.notes = []

namespace Candidate

/-- A rejection for a reason that is put into words is noted so. -/
theorem reject_notes {raw : Text} {reason : Rejection} (h : reason ≠ .noText) :
    (reject raw reason : Traced ε (Option Candidate)).NotesRejection raw := by
  -- every reason but the one for empty tokens has words
  have hmessage : ∃ message, reason.message? raw = some message := by
    cases reason with
    | noText => exact absurd rfl h
    | missingPrefix p => exact ⟨_, rfl⟩
    | emptyName => exact ⟨_, rfl⟩
    | invalidProperty name => exact ⟨_, rfl⟩
    | looksLikeUri => exact ⟨_, rfl⟩
    | invalidValue value => exact ⟨_, rfl⟩
  obtain ⟨message, hmessage⟩ := hmessage
  exact ⟨reason, message, rfl, hmessage⟩

/-- An accepted candidate leaves no note, with or without a canonical form. -/
theorem accept_notes (raw : Text) (k : Collaborators ε) (value : Text) (bodyWith : Text → Body)
    (c : Candidate) : (accept k value bodyWith c).NotesRejection raw := by
  unfold Traced.NotesRejection
  rw [accept_answer]
  cases k.canonical value <;> rfl

/-- What goes on from an answer without notes notes what it goes on to. -/
theorem andThen_notes {raw : Text} {α : Type} {x : Traced ε α} (hx : x.notes = [])
    {f : α → Traced ε (Option Candidate)} (hf : ∀ a, (f a).NotesRejection raw) :
    (x.andThen f).NotesRejection raw := by
  unfold Traced.andThen
  split
  · exact hx
  · next a hanswer =>
    rw [hx]
    exact hf a

/-- A candidate is noted exactly if it is rejected, and then once and in words. -/
theorem judge_notes (k : Collaborators ε) (c : Candidate) : (judge k c).NotesRejection c.raw := by
  unfold judge
  cases c.body with
  | utility name => exact rfl
  | property name value =>
    -- the question leaves no note itself, so the note is that of what follows it
    refine andThen_notes ?_ ?_
    · unfold declarationAccepted
      split <;> rfl
    · intro accepted
      split
      · exact reject_notes (by simp)
      · split
        · exact reject_notes (by simp)
        · exact accept_notes c.raw k value _ c
  | custom name value tag =>
    refine andThen_notes rfl ?_
    intro accepted
    split
    · exact reject_notes (by simp)
    · exact accept_notes c.raw k value _ c

/-- Only the empty token has no text. -/
theorem ofToken_ne_noText {config : Config} {raw : Text} (hraw : raw ≠ []) :
    ofToken config raw ≠ .error .noText := by
  unfold ofToken
  rw [if_neg hraw]
  dsimp only
  split
  · simp
  · split <;> simp

/-- A token that is not empty is noted exactly if it is rejected, and then once and in words. -/
theorem parse_notes (k : Collaborators ε) (config : Config) {raw : Text} (hraw : raw ≠ []) :
    (parse k config raw).NotesRejection raw := by
  unfold parse
  cases htoken : ofToken config raw with
  -- a token that spells no candidate is rejected at once, for a reason with words
  | error reason =>
    apply reject_notes
    intro hreason
    rw [hreason] at htoken
    exact ofToken_ne_noText hraw htoken
  | ok c =>
    obtain ⟨-, flagged, -, -, hc⟩ := ofToken_eq_ok_iff.1 htoken
    have hraw : c.raw = raw := congrArg Candidate.raw hc
    rw [← hraw]
    exact judge_notes k c

/-- The empty token is passed over in silence. -/
theorem parse_nil_messages (k : Collaborators ε) (config : Config) :
    (parse k config []).messages = [] := rfl

/-- A token leaves one message if it is rejected and not empty, and none otherwise. -/
theorem parse_messages (k : Collaborators ε) (config : Config) (raw : Text) :
    ((parse k config raw).answer = .ok none ∧ raw ≠ [] ∧
      ∃ reason message, Rejection.message? raw reason = some message ∧
        (parse k config raw).messages = [message]) ∨
    (¬ ((parse k config raw).answer = .ok none ∧ raw ≠ []) ∧
      (parse k config raw).messages = []) := by
  -- the empty token is the one that is rejected in silence
  by_cases hraw : raw = []
  · subst hraw
    exact .inr ⟨fun h => h.2 rfl, parse_nil_messages k config⟩
  · have hnotes := parse_notes k config hraw
    unfold Traced.NotesRejection at hnotes
    unfold Traced.messages
    split at hnotes
    · next hanswer =>
      obtain ⟨reason, message, hnotes, hmessage⟩ := hnotes
      refine .inl ⟨hanswer, hraw, reason, message, hmessage, ?_⟩
      rw [hnotes]
      simp [Note.message?, hmessage]
    · next hanswer =>
      refine .inr ⟨fun h => hanswer h.1, ?_⟩
      rw [hnotes]
      rfl

end Candidate

end UtilityClass
