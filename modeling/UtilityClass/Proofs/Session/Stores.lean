import UtilityClass.Proofs.Session.Batch
import UtilityClass.Proofs.Session.Memo

/-!
# Caches as histories of stores

What a cache holds is due to what has been stored in it since it was last cleared, by a parser or
without one.  The stores of a session are followed apart from its caches: a parser stores its own
answer, and only where the token is not stored already; a store without a parser is always one more.
A cache lists the stored tokens in the order in which they were first stored, and gives the result
that was stored last.

## Key results

- `Parser.parseAfter_ofList`: reading tokens through a cache adds what the parser stores
- `Session.cacheAt_step`: one step keeps a cache in step with its stores
- `Session.cacheAt_after`: so does a whole run
- `Session.run_lists_stores`: what the questions about a cache are answered after any steps
-/

namespace UtilityClass

variable {ε : Type}

/-! ## Stores -/

/-- What has been stored: tokens with their results, one behind the other. -/
abbrev Stores := List (Text × Option Candidate)

namespace Stores

/-- The tokens that have been stored. -/
def tokens (stores : Stores) : List Text := stores.map Prod.fst

/-- The stored tokens, each once, in the order in which they were first stored. -/
def listed (stores : Stores) : List Text := stores.tokens.eraseDups

/-- The result that was stored last for a token. -/
def latest? (stores : Stores) (raw : Text) : Option (Option Candidate) :=
  stores.reverse.lookup raw

/-- The stores once an answer has come for a token: a failure is not stored. -/
def add (stores : Stores) (raw : Text) : Except ε (Option Candidate) → Stores
  | .ok known => stores ++ [(raw, known)]
  | .error _ => stores

variable {stores : Stores} {raw : Text}

/-- The keys of a cache that was filled by stores are the listed tokens. -/
theorem keys_ofList (stores : Stores) : (Ledger.ofList stores).keys = stores.listed :=
  Ledger.keys_ofList stores

/-- A cache that was filled by stores gives the result that was stored last. -/
theorem find?_ofList (stores : Stores) (raw : Text) :
    (Ledger.ofList stores).find? raw = stores.latest? raw :=
  Ledger.find?_ofList stores raw

/-- A token is listed exactly if it was stored. -/
theorem mem_listed_iff : raw ∈ stores.listed ↔ raw ∈ stores.tokens := List.mem_eraseDups

/-- A token is listed exactly if there is a result that was stored last. -/
theorem mem_listed_iff_exists : raw ∈ stores.listed ↔ ∃ known, stores.latest? raw = some known := by
  rw [← keys_ofList, Ledger.mem_keys_iff_exists, find?_ofList]

/-- A token has no last result exactly if it is not listed. -/
theorem latest?_eq_none_iff : stores.latest? raw = none ↔ raw ∉ stores.listed := by
  rw [← keys_ofList, ← find?_ofList, Ledger.find?_eq_none_iff]

/-- A token that was never stored is not found. -/
theorem find?_ofList_of_not_mem (h : raw ∉ stores.tokens) :
    (Ledger.ofList stores).find? raw = none := by
  rw [find?_ofList, latest?_eq_none_iff, mem_listed_iff]
  exact h

/-- A token that was stored is found. -/
theorem exists_find?_ofList (h : raw ∈ stores.tokens) :
    ∃ known, (Ledger.ofList stores).find? raw = some known := by
  rw [find?_ofList, ← mem_listed_iff_exists, mem_listed_iff]
  exact h

/-- One more store is one more entry. -/
theorem ofList_add (stores : Stores) (raw : Text) (answer : Except ε (Option Candidate)) :
    Ledger.ofList (stores.add raw answer) = Parser.remember (.ofList stores) raw answer := by
  cases answer with
  | ok known => exact List.foldl_append
  | error e => rfl

end Stores

/-- The stores once a parser has been asked for tokens: it stores an answer of its own for each that
    is not stored already, up to the first that it fails on. -/
def Parser.storesAfter (p : Parser ε) (stores : Stores) : List Text → Stores
  | [] => stores
  | raw :: more =>
    if stores.tokens.contains raw then p.storesAfter stores more
    else
      match p.freshAnswer raw with
      | .ok known => p.storesAfter (stores ++ [(raw, known)]) more
      | .error _ => stores

/-- The answer that is stored without a parser: a rejection, or what the default configuration makes
    of the source. -/
def sourceAnswer (defaults : Collaborators ε) : Option Text → Except ε (Option Candidate)
  | some token => (Candidate.parse defaults .default token).answer
  | none => .ok none

namespace Session

/-- The stores of a cache once a numbered parser has been asked for tokens. -/
def storesBy (s : Session ε) (key : CacheKey) (stores : Stores) (n : Nat) (tokens : List Text) :
    Stores :=
  match s.parsers[n]? with
  | some (p, key') => if key' = key then p.storesAfter stores tokens else stores
  | none => stores

/-- The stores of a cache since it was last cleared, once a step is taken.  The session says only
    which parser has a number, and which cache a step points to. -/
def storesAfter (defaults : Collaborators ε) (s : Session ε) (key : CacheKey) (stores : Stores) :
    Step ε → Stores
  | .parse n raw => s.storesBy key stores n [raw]
  | .parseMany n tokens => s.storesBy key stores n tokens
  | .put ref raw result => if s.keyOf ref = key then stores ++ [(raw, result)] else stores
  | .store ref raw source =>
    if s.keyOf ref = key then stores.add raw (sourceAnswer defaults source) else stores
  | .clear ref => if s.keyOf ref = key then [] else stores
  | _ => stores

/-- The stores of a cache since it was last cleared, once steps are taken one after the other. -/
def storesOfSteps (defaults : Collaborators ε) (key : CacheKey) (s : Session ε) (stores : Stores) :
    List (Step ε) → Stores
  | [] => stores
  | first :: more =>
    storesOfSteps defaults key (step defaults s first).2 (s.storesAfter defaults key stores first)
      more

end Session

/-! ## Parsers -/

namespace Parser

variable {p : Parser ε} {stores : Stores} {raw : Text}

/-- A token that is stored already adds nothing. -/
theorem storesAfter_of_stored (h : raw ∈ stores.tokens) (more : List Text) :
    p.storesAfter stores (raw :: more) = p.storesAfter stores more :=
  if_pos (List.contains_iff_mem.2 h)

/-- A token that is not stored adds the answer to it. -/
theorem storesAfter_of_ok (h : raw ∉ stores.tokens) {known : Option Candidate}
    (hraw : p.freshAnswer raw = .ok known) (more : List Text) :
    p.storesAfter stores (raw :: more) = p.storesAfter (stores ++ [(raw, known)]) more := by
  rw [storesAfter, if_neg (mt List.contains_iff_mem.1 h), hraw]

/-- A failure ends the reading, and adds nothing. -/
theorem storesAfter_of_error (h : raw ∉ stores.tokens) {e : ε}
    (hraw : p.freshAnswer raw = .error e) (more : List Text) :
    p.storesAfter stores (raw :: more) = stores := by
  rw [storesAfter, if_neg (mt List.contains_iff_mem.1 h), hraw]

/-- Reading tokens through a cache adds what the parser stores. -/
theorem parseAfter_ofList {results : Cache} (hresults : Backed results (.ofList stores))
    (tokens : List Text) :
    (p.parseAfter results (.ofList stores) tokens).2 = .ofList (p.storesAfter stores tokens) := by
  -- token by token; the results are backed by the cache, which is filled by the stores
  induction tokens generalizing results stores with
  | nil => rfl
  | cons raw more ih =>
    rw [parseAfter]
    by_cases hknown : results.contains raw = true
    · -- a token with a result is passed over, and it is stored already
      obtain ⟨known, hfind⟩ := Option.isSome_iff_exists.1 hknown
      have hstored : raw ∈ stores.tokens := by
        rw [← Stores.mem_listed_iff, Stores.mem_listed_iff_exists]
        exact ⟨known, by rw [← Stores.find?_ofList, hresults raw known hfind]⟩
      rw [if_pos hknown, storesAfter_of_stored hstored]
      exact ih hresults
    · rw [if_neg hknown]
      dsimp only
      rw [parse_answer]
      by_cases hstored : raw ∈ stores.tokens
      · -- a hit stores nothing
        obtain ⟨known, hfind⟩ := Stores.exists_find?_ofList hstored
        have hmore := hresults.parse (p := p) (answerThrough_of_known hfind)
        rw [answerThrough_of_known hfind, storesAfter_of_stored hstored]
        rw [parse_of_known hfind] at hmore ⊢
        exact ih hmore
      -- the token is read afresh: a failure stores nothing and ends the reading
      · have hfind := Stores.find?_ofList_of_not_mem hstored
        have hthrough := answerThrough_of_unknown (p := p) hfind
        cases hraw : p.freshAnswer raw with
        | error e =>
          rw [hraw] at hthrough
          rw [hthrough, storesAfter_of_error hstored hraw]
          exact parse_cache_of_error hthrough
        | ok known =>
          -- the answer is entered, and that is one more store
          rw [hraw] at hthrough
          have hmore := hresults.parse hthrough
          rw [hthrough, storesAfter_of_ok hstored hraw]
          rw [parse_cache_of_unknown hfind hraw, ← Ledger.ofList_concat] at hmore ⊢
          exact ih hmore

/-- Reading one token adds what the parser stores for it. -/
theorem parse_ofList (p : Parser ε) (stores : Stores) (raw : Text) :
    (p.parse (.ofList stores) raw).2 = .ofList (p.storesAfter stores [raw]) := by
  rw [← parseAfter_ofList (.empty _), ← parseMany, parseMany_cache_singleton]

end Parser

/-! ## Sessions -/

namespace Session

variable {defaults : Collaborators ε} {s : Session ε} {key : CacheKey} {stores : Stores}

/-- A parser that works on its cache leaves it with what it stores, and the other caches as they
    are. -/
theorem cacheAt_withParser {α : Type} (h : s.cacheAt key = .ofList stores) {n : Nat}
    {tokens : List Text} {work : Parser ε → Cache → Traced ε α × Cache} {toReply : α → Reply}
    (hwork : ∀ p stores, (work p (.ofList stores)).2 = .ofList (p.storesAfter stores tokens)) :
    (s.withParser n work toReply).2.cacheAt key = .ofList (s.storesBy key stores n tokens) := by
  rw [storesBy]
  cases hn : s.parsers[n]? with
  | none => rw [withParser_of_none hn, h]
  | some entry =>
    obtain ⟨p, key'⟩ := entry
    rw [withParser_of_some hn, cacheAt_setCache]
    dsimp only
    -- only the cache that the parser works on is written
    by_cases hkey : key' = key
    · rw [if_pos hkey, if_pos hkey.symm, hkey, h, hwork]
    · rw [if_neg hkey, if_neg (Ne.symm hkey), h]

/-- One step keeps a cache in step with its stores. -/
theorem cacheAt_step (h : s.cacheAt key = .ofList stores) (st : Step ε) :
    (step defaults s st).2.cacheAt key = .ofList (s.storesAfter defaults key stores st) := by
  -- a parser and a direct store write one cache, a clearing empties one
  cases st with
  | parse n raw => exact cacheAt_withParser h fun p stores => p.parse_ofList stores raw
  | parseMany n tokens =>
    exact cacheAt_withParser h fun p stores => Parser.parseAfter_ofList (.empty _) tokens
  | put ref raw result =>
    rw [step, put, storesAfter, cacheAt_setCache]
    by_cases hkey : s.keyOf ref = key
    · rw [if_pos hkey, if_pos hkey.symm, hkey, h, Ledger.ofList_concat]
    · rw [if_neg hkey, if_neg (Ne.symm hkey), h]
  | store ref raw source =>
    have hstore : (store defaults s (s.keyOf ref) raw source).2 = s.setCache (s.keyOf ref)
        (Parser.remember (s.cacheAt (s.keyOf ref)) raw (sourceAnswer defaults source)) := by
      cases source <;> rfl
    rw [step, hstore, storesAfter, cacheAt_setCache]
    by_cases hkey : s.keyOf ref = key
    · rw [if_pos hkey, if_pos hkey.symm, hkey, h, Stores.ofList_add]
    · rw [if_neg hkey, if_neg (Ne.symm hkey), h]
  | clear ref =>
    rw [step, storesAfter, cacheAt_setCache]
    by_cases hkey : s.keyOf ref = key
    · rw [if_pos hkey, if_pos hkey.symm]
      rfl
    · rw [if_neg hkey, if_neg (Ne.symm hkey), h]
  -- the other steps write to no cache that has a key
  | make settings cache k =>
    rw [step, make]
    split <;> exact h
  | parseShared settings raw =>
    rw [step, parseShared]
    split <;> exact h
  | get ref raw | lookup ref raw fallback =>
    rw [Session.step]
    split <;> exact h
  | resetShared | contains ref raw | size ref | keys ref => exact h

/-- A run keeps a cache in step with its stores. -/
theorem cacheAt_after (h : s.cacheAt key = .ofList stores) (steps : List (Step ε)) :
    (after defaults s steps).cacheAt key = .ofList (storesOfSteps defaults key s stores steps) := by
  -- on the steps left: the stores grow by what each step stores
  induction steps generalizing s stores with
  | nil => exact h
  | cons first more ih => exact ih (cacheAt_step h first)

/-! ## Questions -/

/-- What the observers of a cache and its parsers answer about a token that it knows. -/
theorem step_of_known (defaults : Collaborators ε) {s : Session ε} {ref : CacheRef} {raw : Text}
    {known : Option Candidate} (h : (s.cacheAt (s.keyOf ref)).find? raw = some known) :
    (step defaults s (.contains ref raw)).1.answer = .ok (.flag true) ∧
    (step defaults s (.get ref raw)).1.answer = .ok (.candidate known) ∧
    (∀ fallback, (step defaults s (.lookup ref raw fallback)).1.answer =
      .ok (.candidate known)) ∧
    ∀ n p, s.parsers[n]? = some (p, s.keyOf ref) →
      (step defaults s (.parse n raw)).1.answer = .ok (.candidate known) := by
  -- each question is answered by what is found under the token
  refine ⟨?_, ?_, fun fallback => ?_, fun n p hn => ?_⟩
  · rw [step, Ledger.contains, h]
    rfl
  · rw [step, h]
    rfl
  · rw [step, h]
    rfl
  · rw [step, withParser_of_some hn, Parser.parse_of_known h]
    rfl

/-- What the observers of a cache answer about a token that it does not know; its parsers read the
token afresh. -/
theorem step_of_unknown (defaults : Collaborators ε) {s : Session ε} {ref : CacheRef}
    {raw : Text} (h : (s.cacheAt (s.keyOf ref)).find? raw = none) :
    (step defaults s (.contains ref raw)).1.answer = .ok (.flag false) ∧
    (step defaults s (.get ref raw)).1.answer = .error (.unknownKey raw) ∧
    (∀ fallback, (step defaults s (.lookup ref raw fallback)).1.answer =
      .ok (.absent fallback)) ∧
    ∀ n p, s.parsers[n]? = some (p, s.keyOf ref) →
      (step defaults s (.parse n raw)).1.answer = asReply .candidate (p.freshAnswer raw) := by
  -- each question is answered by what is not found under the token
  refine ⟨?_, ?_, fun fallback => ?_, fun n p hn => ?_⟩
  · rw [step, Ledger.contains, h]
    rfl
  · rw [step, h]
    rfl
  · rw [step, h]
    rfl
  · rw [step, withParser_of_some hn, ← Parser.answerThrough_of_unknown h, ← Parser.parse_answer]
    rfl

/-- After any steps a cache lists the tokens that have been stored in it since it was last cleared,
    each once, in the order in which they were first stored, and its size is their number.  Exactly
    the listed tokens are contained in it, and got and looked up with the result that was stored
    last, be it a rejection; all others are unknown, and looked up with the fallback.  A parser
    that works on the cache is answered in the same way, and reads for itself what is not listed. -/
theorem run_lists_stores (defaults : Collaborators ε) (before rest : List (Step ε))
    (ref : CacheRef) :
    let s := after defaults empty before
    let stores := storesOfSteps defaults (s.keyOf ref) empty [] before
    let answer := fun st => answerTo? defaults before st rest
    answer (.keys ref) = some (.ok (.keys stores.listed)) ∧
    answer (.size ref) = some (.ok (.count stores.listed.length)) ∧
    (∀ raw ∈ stores.listed, ∃ known, stores.latest? raw = some known ∧
      answer (.contains ref raw) = some (.ok (.flag true)) ∧
      answer (.get ref raw) = some (.ok (.candidate known)) ∧
      (∀ fallback, answer (.lookup ref raw fallback) = some (.ok (.candidate known))) ∧
      ∀ n p, s.parsers[n]? = some (p, s.keyOf ref) →
        answer (.parse n raw) = some (.ok (.candidate known))) ∧
    ∀ raw ∉ stores.listed,
      answer (.contains ref raw) = some (.ok (.flag false)) ∧
      answer (.get ref raw) = some (.error (.unknownKey raw)) ∧
      (∀ fallback, answer (.lookup ref raw fallback) = some (.ok (.absent fallback))) ∧
      ∀ n p, s.parsers[n]? = some (p, s.keyOf ref) →
        answer (.parse n raw) = some (asReply .candidate (p.freshAnswer raw)) := by
  intro s stores answer
  -- every answer is that of the session behind the steps, whose cache is filled by the stores
  have hanswer (st : Step ε) : answer st = some (step defaults s st).1.answer :=
    answerTo?_eq defaults before st rest
  have hcache : s.cacheAt (s.keyOf ref) = .ofList stores := cacheAt_after rfl before
  have hfind (raw : Text) : (s.cacheAt (s.keyOf ref)).find? raw = stores.latest? raw := by
    rw [hcache, Stores.find?_ofList]
  simp only [hanswer, Option.some.injEq]
  refine ⟨?_, ?_, ?_, ?_⟩
  · rw [step, hcache, Stores.keys_ofList]
    rfl
  · rw [step, hcache, ← Stores.keys_ofList, Ledger.length_keys]
    rfl
  · intro raw hraw
    obtain ⟨known, hlatest⟩ := Stores.mem_listed_iff_exists.1 hraw
    exact ⟨known, hlatest, step_of_known defaults ((hfind raw).trans hlatest)⟩
  · intro raw hraw
    exact step_of_unknown defaults ((hfind raw).trans (Stores.latest?_eq_none_iff.2 hraw))

/-- A token is stored with a candidate of another one, read and stored again behind a clearing: it
    keeps its place, and the rejection that was stored last is its result.  A token that a parser
    fails on is not listed, nor is what stands behind it or what was read before the clearing. -/
theorem run_lists_stores_overwritten :
    ∃ (other : Candidate) (before : List (Step Value.Fault)),
      before = [.make {} (some "shared") .standard, .parse 0 "z", .clear (.named "shared"),
        .put (.named "shared") "b" (some other), .parse 0 "a-[;]", .parse 0 "b",
        .parseMany 0 ["c", "a-['url(']", "d"], .store (.ofParser 0) "b" none] ∧
      answerTo? .standard before (.keys (.named "shared")) [] =
        some (.ok (.keys ["b", "a-[;]", "c"])) ∧
      answerTo? .standard before (.size (.named "shared")) [] = some (.ok (.count 3)) ∧
      answerTo? .standard before (.get (.named "shared") "b") [] = some (.ok (.candidate none)) ∧
      answerTo? .standard before (.parse 0 "b") [] = some (.ok (.candidate none)) ∧
      answerTo? .standard before (.get (.named "shared") "z") [] = some (.error (.unknownKey "z")) ∧
      answerTo? .standard before (.lookup (.named "shared") "z" (some "b")) [] =
        some (.ok (.absent (some "b"))) := by
  let parser : Parser Value.Fault × CacheKey := (⟨.default, .standard⟩, .named "shared")
  let other : Candidate := ⟨"a", [], true, true, [], [], .utility "c"⟩
  let first : Step Value.Fault := .make {} (some "shared") .standard
  let more : List (Step Value.Fault) := [.parse 0 "z", .clear (.named "shared"),
    .put (.named "shared") "b" (some other), .parse 0 "a-[;]", .parse 0 "b",
    .parseMany 0 ["c", "a-['url(']", "d"], .store (.ofParser 0) "b" none]
  let stores := storesOfSteps .standard (.named "shared") empty [] (first :: more)
  -- the parser stays where it was made
  have hparser : (after .standard empty (first :: more)).parsers[0]? = some parser :=
    getElem?_parsers_after_cons rfl more
  have hlisted : stores.listed = (["b", "a-[;]", "c"] : List Text) := by decide +kernel
  have hlatest : stores.latest? "b" = some none := by decide +kernel
  have hstored : ("b" : Text) ∈ stores.listed := by
    rw [hlisted]
    decide
  have hmissing : ("z" : Text) ∉ stores.listed := by
    rw [hlisted]
    decide
  obtain ⟨hkeys, hsize, hknown, hunknown⟩ :=
    run_lists_stores .standard (first :: more) [] (.named "shared")
  obtain ⟨known, hlast, -, hget, -, hparse⟩ := hknown "b" hstored
  obtain rfl : none = known := Option.some.inj (hlatest.symm.trans hlast)
  obtain ⟨-, hgetMissing, hlookup, -⟩ := hunknown "z" hmissing
  refine ⟨other, first :: more, rfl, ?_, ?_, hget, hparse 0 _ hparser, hgetMissing, hlookup _⟩
  · rw [← hlisted]
    exact hkeys
  · have hlength : 3 = stores.listed.length := by
      rw [hlisted]
      rfl
    rw [hlength]
    exact hsize

end Session

end UtilityClass
