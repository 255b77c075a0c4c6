import UtilityClass.Parser

/-!
# Sessions

A session holds numbered parsers, the caches that they write to, alone or together, and a table of
shared parsers, one for each configuration.  A step asks one thing of it; its answer comes with the
calls made to the collaborators of numbered parsers and the notes taken.
-/

namespace UtilityClass

/-- A cache of a session: that of the parser it was made for, or one with a name. -/
inductive CacheKey where
  | own (parser : Nat)
  | named (name : Text)
  deriving DecidableEq, Repr

/-- How a step points to a cache. -/
inductive CacheRef where
  | named (name : Text)
  | ofParser (parser : Nat)
  deriving DecidableEq, Repr

/-- The state of a session. -/
structure Session (ε : Type) where
  /-- The parsers in the order of their making, each with the cache that it writes to. -/
  parsers : List (Parser ε × CacheKey)
  caches : Ledger CacheKey Cache
  /-- The caches of the shared parsers. -/
  shared : Ledger Config Cache

/-- Something asked of a session. -/
inductive Step (ε : Type) where
  /-- Makes a parser, with a named cache or one of its own. -/
  | make (settings : Settings) (cache : Option Text) (collaborators : Collaborators ε)
  | parse (parser : Nat) (raw : Text)
  | parseMany (parser : Nat) (tokens : List Text)
  /-- Reads a token with the shared parser of a configuration. -/
  | parseShared (settings : Settings) (raw : Text)
  | resetShared
  | clear (cache : CacheRef)
  | get (cache : CacheRef) (raw : Text)
  | lookup (cache : CacheRef) (raw : Text) (fallback : Option Text)
  /-- Stores any result. -/
  | put (cache : CacheRef) (raw : Text) (result : Option Candidate)
  /-- Stores a rejection, or what the default configuration makes of a token. -/
  | store (cache : CacheRef) (raw : Text) (source : Option Text)
  | contains (cache : CacheRef) (raw : Text)
  | size (cache : CacheRef)
  | keys (cache : CacheRef)

/-- The answer to a step. -/
inductive Reply where
  | parserNumber (n : Nat)
  | candidate (c : Option Candidate)
  | results (r : Cache)
  | done
  /-- The fallback of a look-up, or the lack of any answer. -/
  | absent (fallback : Option Text)
  | flag (b : Bool)
  | count (n : Nat)
  | keys (raws : List Text)

/-- Why a step has no answer. -/
inductive StepError (ε : Type) where
  | config (e : Config.Error)
  | fault (e : ε)
  | unknownKey (raw : Text)
  | unknownParser (n : Nat)

namespace Session

variable {ε : Type}

/-- The session before the first step. -/
def empty : Session ε := ⟨[], .empty, .empty⟩

/-- The cache under a key; a cache is empty until something is written to it. -/
def cacheAt (s : Session ε) (key : CacheKey) : Cache := (s.caches.find? key).getD .empty

/-- Replaces the cache under a key. -/
def setCache (s : Session ε) (key : CacheKey) (cache : Cache) : Session ε :=
  { s with caches := s.caches.insert key cache }

/-- The key of the cache that a step points to. -/
def keyOf (s : Session ε) : CacheRef → CacheKey
  | .named name => .named name
  | .ofParser n =>
    match s.parsers[n]? with
    | some (_, key) => key
    | none => .own n

/-- The cache of the shared parser of a configuration. -/
def sharedCache (s : Session ε) (config : Config) : Cache :=
  (s.shared.find? config).getD .empty

/-- An answer without calls and notes. -/
def reply (r : Reply) : Traced (StepError ε) Reply := .done r

/-- A failure without calls and notes. -/
def fail (e : StepError ε) : Traced (StepError ε) Reply := ⟨[], [], .error e⟩

/-- What became of a token or of several, as the answer to a step. -/
def report {α : Type} (toReply : α → Reply) (t : Traced ε α) : Traced (StepError ε) Reply :=
  ⟨t.calls, t.notes, (t.answer.mapError .fault).map toReply⟩

/-- The same without the calls. -/
def withoutCalls {α : Type} (t : Traced ε α) : Traced ε α := { t with calls := [] }

/-- Makes a parser.  Bad settings use up no number. -/
def make (s : Session ε) (settings : Settings) (cache : Option Text) (k : Collaborators ε) :
    Traced (StepError ε) Reply × Session ε :=
  match Config.ofSettings settings with
  | .error e => (fail (.config e), s)
  | .ok config =>
    let n := s.parsers.length
    let key := match cache with
      | some name => CacheKey.named name
      | none => .own n
    (reply (.parserNumber n), { s with parsers := s.parsers ++ [(⟨config, k⟩, key)] })

/-- Lets a numbered parser work on its cache. -/
def withParser {α : Type} (s : Session ε) (n : Nat)
    (work : Parser ε → Cache → Traced ε α × Cache) (toReply : α → Reply) :
    Traced (StepError ε) Reply × Session ε :=
  match s.parsers[n]? with
  | none => (fail (.unknownParser n), s)
  | some (p, key) =>
    let (traced, cache) := work p (s.cacheAt key)
    (report toReply traced, s.setCache key cache)

/-- Reads a token with the shared parser of a configuration, which is made when first needed. -/
def parseShared (defaults : Collaborators ε) (s : Session ε) (settings : Settings) (raw : Text) :
    Traced (StepError ε) Reply × Session ε :=
  match Config.ofSettings settings with
  | .error e => (fail (.config e), s)
  | .ok config =>
    let (traced, cache) := Parser.parse ⟨config, defaults⟩ (s.sharedCache config) raw
    (report .candidate (withoutCalls traced), { s with shared := s.shared.insert config cache })

/-- Stores a result, whatever it is. -/
def put (s : Session ε) (key : CacheKey) (raw : Text) (result : Option Candidate) : Session ε :=
  s.setCache key ((s.cacheAt key).insert raw result)

/-- Stores a rejection, or what the default configuration makes of the source. -/
def store (defaults : Collaborators ε) (s : Session ε) (key : CacheKey) (raw : Text)
    (source : Option Text) : Traced (StepError ε) Reply × Session ε :=
  let traced := match source with
    | some token => withoutCalls (Candidate.parse defaults .default token)
    | none => .done none
  (report (fun _ => .done) traced,
    s.setCache key (Parser.remember (s.cacheAt key) raw traced.answer))

/-- One step of a session; `defaults` are the collaborators of shared parsers. -/
def step (defaults : Collaborators ε) (s : Session ε) :
    Step ε → Traced (StepError ε) Reply × Session ε
  | .make settings cache k => s.make settings cache k
  | .parse n raw => s.withParser n (fun p cache => p.parse cache raw) .candidate
  | .parseMany n tokens => s.withParser n (fun p cache => p.parseMany cache tokens) .results
  | .parseShared settings raw => parseShared defaults s settings raw
  | .resetShared => (reply .done, { s with shared := .empty })
  | .clear ref =>
    (⟨[], [.cleared (s.cacheAt (s.keyOf ref)).size], .ok .done⟩,
      s.setCache (s.keyOf ref) .empty)
  | .get ref raw =>
    match (s.cacheAt (s.keyOf ref)).find? raw with
    | some known => (reply (.candidate known), s)
    | none => (fail (.unknownKey raw), s)
  | .lookup ref raw fallback =>
    match (s.cacheAt (s.keyOf ref)).find? raw with
    | some known => (reply (.candidate known), s)
    | none => (reply (.absent fallback), s)
  | .put ref raw result => (reply .done, s.put (s.keyOf ref) raw result)
  | .store ref raw source => store defaults s (s.keyOf ref) raw source
  | .contains ref raw => (reply (.flag ((s.cacheAt (s.keyOf ref)).contains raw)), s)
  | .size ref => (reply (.count (s.cacheAt (s.keyOf ref)).size), s)
  | .keys ref => (reply (.keys (s.cacheAt (s.keyOf ref)).keys), s)

/-- The answers to steps taken one after the other. -/
def run (defaults : Collaborators ε) (s : Session ε) :
    List (Step ε) → List (Traced (StepError ε) Reply)
  | [] => []
  | first :: more =>
    let (answer, s') := step defaults s first
    answer :: run defaults s' more

end Session

end UtilityClass
