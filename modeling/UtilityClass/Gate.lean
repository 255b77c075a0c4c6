import UtilityClass.Candidate.Token
import UtilityClass.Property
import UtilityClass.Uri.Basic
import UtilityClass.Value.Canonical

/-!
# The gate

A token that spells a candidate is let through the gate when its value is acceptable, and then
carries the canonical form of its value.  Three collaborators answer the questions of the gate;
each may fail.  `Traced` keeps the calls made to them, and what is noted about rejected tokens,
beside the answer.
-/

namespace UtilityClass

/-- The three judges of values.  A failure is of type `ε`. -/
structure Collaborators (ε : Type) where
  /-- Whether a bracketed value can be emitted. -/
  acceptsValue : Text → Except ε Bool
  /-- Whether a name and a value make one declaration. -/
  acceptsDeclaration : Text → Text → Except ε Bool
  /-- The canonical form of a value. -/
  canonical : Text → Except ε Text

/-- The library's own judges. -/
def Collaborators.standard : Collaborators Value.Fault where
  acceptsValue v := .ok (Value.isValid v)
  acceptsDeclaration name v := .ok (Property.isDeclaration name v)
  canonical v := Value.canonical v

/-- A call to a collaborator. -/
inductive Call where
  | value (value : Text)
  | declaration (name value : Text)
  | canonical (value : Text)
  deriving DecidableEq, Repr

/-- Something worth noting. -/
inductive Note where
  /-- A token was rejected. -/
  | rejected (raw : Text) (reason : Rejection)
  /-- A cache with this many entries was cleared. -/
  | cleared (size : Nat)
  deriving DecidableEq, Repr

/-- The wording of a note, if it is put into words. -/
def Note.message? : Note → Option Text
  | rejected raw reason => reason.message? raw
  | cleared size =>
    some ("candidate cache cleared (".toList ++ Text.ofNat size ++ " entries)".toList)

/-- An answer or a failure, with the calls made and the notes taken on the way. -/
structure Traced (ε α : Type) where
  calls : List Call
  notes : List Note
  answer : Except ε α

namespace Traced

variable {ε α β : Type}

/-- An answer that took no calls. -/
def done (a : α) : Traced ε α := ⟨[], [], .ok a⟩

/-- The answer to one call. -/
def ask (call : Call) (answer : Except ε α) : Traced ε α := ⟨[call], [], answer⟩

/-- Goes on with the answer; a failure ends the whole. -/
def andThen (x : Traced ε α) (f : α → Traced ε β) : Traced ε β :=
  match x.answer with
  | .error e => ⟨x.calls, x.notes, .error e⟩
  | .ok a => ⟨x.calls ++ (f a).calls, x.notes ++ (f a).notes, (f a).answer⟩

/-- Changes the answer. -/
def map (f : α → β) (x : Traced ε α) : Traced ε β := ⟨x.calls, x.notes, x.answer.map f⟩

end Traced

namespace Candidate

variable {ε : Type}

/-- Rejects a token. -/
def reject (raw : Text) (reason : Rejection) : Traced ε (Option Candidate) :=
  ⟨[], [.rejected raw reason], .ok none⟩

/-- Accepts a candidate with the canonical form of its value. -/
def accept (k : Collaborators ε) (value : Text) (bodyWith : Text → Body) (c : Candidate) :
    Traced ε (Option Candidate) :=
  (Traced.ask (.canonical value) (k.canonical value)).map fun v =>
    some { c with body := bodyWith v }

/-- Whether the name and value of a property may stand; names that open like a property name are
not asked about. -/
def declarationAccepted (k : Collaborators ε) (name value : Text) : Traced ε Bool :=
  if Property.opensName name then .done true
  else .ask (.declaration name value) (k.acceptsDeclaration name value)

/-- Checks a candidate and brings its value into canonical form. -/
def judge (k : Collaborators ε) (c : Candidate) : Traced ε (Option Candidate) :=
  match c.body with
  | .utility _ => .done (some c)
  | .property name value =>
    (declarationAccepted k name value).andThen fun accepted =>
      if accepted = false then reject c.raw (.invalidProperty name)
      else if Uri.isUriLike (name ++ ':' :: value) then reject c.raw .looksLikeUri
      else accept k value (.property name ·) c
  | .custom name value tag =>
    (Traced.ask (.value value) (k.acceptsValue value)).andThen fun accepted =>
      if accepted = false then reject c.raw (.invalidValue value)
      else accept k value (.custom name · tag) c

/-- Reads and checks a token. -/
def parse (k : Collaborators ε) (config : Config) (raw : Text) : Traced ε (Option Candidate) :=
  match ofToken config raw with
  | .error reason => reject raw reason
  | .ok c => judge k c

end Candidate

end UtilityClass
