import UtilityClass.Proofs.Gate
import UtilityClass.Proofs.Session.History

/-!
# Caches change no answer but by their first writer

A session without direct stores keeps each of its caches in step with the history of that cache.
So a parser gives the answers of the first readers of its cache: its own where it is the first, and
where all parsers that share the cache are alike.

## Key results

- `getElem?_run`: the answer to a step is that of the session after the steps before it
- `InStep.step`: one step keeps every cache in step with its history
- `inStep_after`: so does a whole run
- `mem_parsers_of_history`: who reads through a cache is a parser that was made with it
- `run_answers_as_first_reader`: what a parser answers after any steps
-/

namespace UtilityClass

variable {ε : Type}

/-- Whether the step writes to a cache without a parser. -/
def Step.isStore : Step ε → Bool
  | .put _ _ _ | .store _ _ _ => true
  | _ => false

namespace Session

variable (defaults : Collaborators ε)

/-- The session after some steps. -/
def after (s : Session ε) (steps : List (Step ε)) : Session ε :=
  steps.foldl (fun s st => (step defaults s st).2) s

/-- What numbered parsers read at a step. -/
def readings (s : Session ε) (n : Nat) (tokens : List Text) : List (Reading ε) :=
  match s.parsers[n]? with
  | some (p, key) => p.readings key .empty (s.cacheAt key) tokens
  | none => []

/-- What a step does to the caches. -/
def events (s : Session ε) : Step ε → List (Event ε)
  | .parse n raw => (s.readings n [raw]).map .reading
  | .parseMany n tokens => (s.readings n tokens).map .reading
  | .clear ref => [.cleared (s.keyOf ref)]
  | _ => []

/-- What steps do to the caches, one after the other. -/
def history (s : Session ε) : List (Step ε) → List (Event ε)
  | [] => []
  | first :: more => s.events first ++ history (step defaults s first).2 more

/-- Every cache is in step with its history. -/
def InStep (events : List (Event ε)) (s : Session ε) : Prop :=
  ∀ key, Kept events key (s.cacheAt key)

/-! ## Runs -/

/-- The answers to two runs, one behind the other. -/
theorem run_append (s : Session ε) (before more : List (Step ε)) :
    run defaults s (before ++ more) =
      run defaults s before ++ run defaults (after defaults s before) more := by
  -- the answers to the later steps are those of the session that the first step leaves
  induction before generalizing s with
  | nil => rfl
  | cons first before ih => exact congrArg (_ :: ·) (ih _)

/-- Every step has an answer. -/
theorem length_run (s : Session ε) (steps : List (Step ε)) :
    (run defaults s steps).length = steps.length := by
  induction steps generalizing s with
  | nil => rfl
  | cons first more ih => exact congrArg (· + 1) (ih _)

/-- The answer to a step is that of the session after the steps before it. -/
theorem getElem?_run (s : Session ε) (before rest : List (Step ε)) (st : Step ε) :
    (run defaults s (before ++ st :: rest))[before.length]? =
      some (step defaults (after defaults s before) st).1 := by
  rw [run_append, ← length_run defaults s before, List.getElem?_append_right (Nat.le_refl _),
    Nat.sub_self]
  rfl

/-! ## Caches -/

/-- Writing a cache changes it alone. -/
theorem cacheAt_setCache (s : Session ε) (key key' : CacheKey) (cache : Cache) :
    (s.setCache key cache).cacheAt key' = if key' = key then cache else s.cacheAt key' := by
  unfold cacheAt setCache
  rw [Ledger.find?_insert]
  split <;> rfl

/-- A new session has no history and no results. -/
theorem inStep_empty : InStep [] (empty : Session ε) := fun _ _ => rfl

variable {defaults} {events : List (Event ε)} {s s' : Session ε}

/-- Steps that leave the caches alone keep them in step. -/
theorem InStep.of_caches_eq (h : InStep events s) (hcaches : s'.caches = s.caches) :
    InStep (events ++ []) s' := by
  intro key
  rw [List.append_nil, cacheAt, hcaches]
  exact h key

/-- A parser that reads through its cache leaves the other caches as they were. -/
theorem InStep.read (h : InStep events s) {key : CacheKey} {readings : List (Reading ε)}
    {cache : Cache} (hreadings : ∀ r ∈ readings, r.cache = key)
    (hkept : Kept (events ++ readings.map .reading) key cache) :
    InStep (events ++ readings.map .reading) (s.setCache key cache) := by
  intro key'
  rw [cacheAt_setCache]
  -- the cache that was read through is kept by assumption, and no event is about another one
  split
  · next heq =>
    subst heq
    exact hkept
  · next hne =>
    intro raw
    have hother : ∀ r ∈ readings, r.cache ≠ key' := fun r hr heq => hne (heq ▸ hreadings r hr)
    rw [firstReader?_append_readings hother]
    exact h key' raw

/-- Clearing a cache and nothing else keeps all caches in step. -/
theorem InStep.clear (h : InStep events s) (key : CacheKey) :
    InStep (events ++ [.cleared key]) (s.setCache key .empty) := by
  intro key' raw
  rw [cacheAt_setCache, firstReader?_append]
  -- the cleared cache has no first readers left, and the readers of the others are as before
  by_cases heq : key' = key
  · simp [heq, Event.clears]
  · have hne : ¬ key = key' := fun h => heq h.symm
    simp only [Event.clears, beq_iff_eq, hne, heq, if_false, Event.reader?, Option.or_none]
    exact h key' raw

/-! ## Steps -/

/-- A number of a parser is looked up, and the parser works on its cache. -/
theorem withParser_of_some {α : Type} {n : Nat} {p : Parser ε} {key : CacheKey}
    (hn : s.parsers[n]? = some (p, key)) (work : Parser ε → Cache → Traced ε α × Cache)
    (toReply : α → Reply) :
    s.withParser n work toReply =
      (report toReply (work p (s.cacheAt key)).1, s.setCache key (work p (s.cacheAt key)).2) := by
  unfold withParser
  rw [hn]

/-- Without a parser of that number nothing is done. -/
theorem withParser_of_none {α : Type} {n : Nat} (hn : s.parsers[n]? = none)
    (work : Parser ε → Cache → Traced ε α × Cache) (toReply : α → Reply) :
    s.withParser n work toReply = (fail (.unknownParser n), s) := by
  unfold withParser
  rw [hn]

/-- A numbered parser keeps the caches in step, if its work keeps the one that it works on.  A
    number without a parser leaves them alone. -/
theorem InStep.withParser {α : Type} (h : InStep events s) {n : Nat} {tokens : List Text}
    {work : Parser ε → Cache → Traced ε α × Cache} {toReply : α → Reply}
    (hwork : ∀ p key cache, Kept events key cache →
      Kept (events ++ (p.readings key .empty cache tokens).map .reading) key (work p cache).2) :
    InStep (events ++ (s.readings n tokens).map .reading) (s.withParser n work toReply).2 := by
  rw [Session.readings]
  cases hn : s.parsers[n]? with
  | none =>
    rw [withParser_of_none hn]
    exact h.of_caches_eq rfl
  | some entry =>
    -- the parser works on the cache under its own key and writes that one back
    obtain ⟨p, key⟩ := entry
    rw [withParser_of_some hn]
    exact h.read (fun r hr => (Parser.mem_readings hr).2) (hwork p key _ (h key))

/-- One step that is no direct store keeps every cache in step with its history. -/
theorem InStep.step (h : InStep events s) {st : Step ε} (hst : st.isStore = false) :
    InStep (events ++ s.events st) (Session.step defaults s st).2 := by
  -- a parser reads through its cache or a cache is cleared; direct stores are excluded
  cases st with
  | parse n raw =>
    refine h.withParser fun p key cache hkept => ?_
    rw [Parser.readings_singleton]
    exact hkept.parse p raw
  | parseMany n tokens => exact h.withParser fun p key cache hkept =>
      (hkept.parseAfter p (.empty _) tokens).2
  | clear ref => exact h.clear (s.keyOf ref)
  | put ref raw result => exact nomatch hst
  | store ref raw source => exact nomatch hst
  -- the other steps write to no cache that has a key
  | make settings cache k =>
    refine h.of_caches_eq ?_
    rw [Session.step, Session.make]
    split <;> rfl
  | parseShared settings raw =>
    refine h.of_caches_eq ?_
    rw [Session.step, Session.parseShared]
    split <;> rfl
  | get ref raw | lookup ref raw fallback =>
    refine h.of_caches_eq ?_
    rw [Session.step]
    split <;> rfl
  | resetShared | contains ref raw | size ref | keys ref => exact h.of_caches_eq rfl

/-- A run without direct stores keeps every cache in step with its history. -/
theorem InStep.after (h : InStep events s) {steps : List (Step ε)}
    (hsteps : ∀ st ∈ steps, st.isStore = false) :
    InStep (events ++ history defaults s steps) (Session.after defaults s steps) := by
  -- on the steps left: the history grows by what each step does
  induction steps generalizing events s with
  | nil => simpa [Session.history, Session.after] using h
  | cons first more ih =>
    have hfirst : InStep (events ++ s.events first) (Session.step defaults s first).2 :=
      h.step (hsteps first List.mem_cons_self)
    have hmore := ih hfirst fun st hst => hsteps st (List.mem_cons_of_mem _ hst)
    rwa [List.append_assoc] at hmore

/-- A run from the start without direct stores keeps every cache in step with its history. -/
theorem inStep_after (defaults : Collaborators ε) {steps : List (Step ε)}
    (hsteps : ∀ st ∈ steps, st.isStore = false) :
    InStep (history defaults empty steps) (Session.after defaults empty steps) :=
  inStep_empty.after hsteps

/-! ## Parsers -/

/-- Parsers are made, and stay as they were made. -/
theorem parsers_step (defaults : Collaborators ε) (s : Session ε) (st : Step ε) :
    s.parsers <+: (Session.step defaults s st).2.parsers := by
  -- only making a parser changes the parsers, and it puts the new one behind the others
  cases st with
  | make settings cache k =>
    rw [Session.step, Session.make]
    split
    · exact List.prefix_refl _
    · exact List.prefix_append _ _
  | parse n raw | parseMany n tokens =>
    rw [Session.step, withParser]
    split <;> exact List.prefix_refl _
  | parseShared settings raw =>
    rw [Session.step, Session.parseShared]
    split <;> exact List.prefix_refl _
  | get ref raw | lookup ref raw fallback =>
    rw [Session.step]
    split <;> exact List.prefix_refl _
  | resetShared | clear ref | put ref raw result | store ref raw source | contains ref raw
  | size ref | keys ref => exact List.prefix_refl _

/-- Parsers stay through a run. -/
theorem parsers_after (defaults : Collaborators ε) (s : Session ε) (steps : List (Step ε)) :
    s.parsers <+: (Session.after defaults s steps).parsers := by
  induction steps generalizing s with
  | nil => exact List.prefix_refl _
  | cons first more ih => exact (parsers_step defaults s first).trans (ih _)

/-- A parser that is there after the first step keeps its number. -/
theorem getElem?_parsers_after_cons {s : Session ε} {first : Step ε} {n : Nat}
    {entry : Parser ε × CacheKey} (h : (Session.step defaults s first).2.parsers[n]? = some entry)
    (more : List (Step ε)) :
    (Session.after defaults s (first :: more)).parsers[n]? = some entry := by
  -- the later parsers come behind the ones that are there
  obtain ⟨others, hothers⟩ := parsers_after defaults (Session.step defaults s first).2 more
  obtain ⟨hn, -⟩ := List.getElem?_eq_some_iff.1 h
  rw [Session.after, List.foldl_cons, ← Session.after, ← hothers, List.getElem?_append_left hn, h]

/-- Who reads at a step is a parser of the session, and reads through the cache that it was made
    with. -/
theorem mem_parsers_of_event {s : Session ε} {st : Step ε} {r : Reading ε}
    (h : .reading r ∈ s.events st) : (r.parser, r.cache) ∈ s.parsers := by
  -- one token is read like several
  have hreadings : ∀ n tokens, r ∈ s.readings n tokens → (r.parser, r.cache) ∈ s.parsers := by
    intro n tokens hr
    unfold Session.readings at hr
    split at hr
    · next p key hn =>
      obtain ⟨hparser, hcache⟩ := Parser.mem_readings hr
      rw [hparser, hcache]
      exact List.mem_of_getElem? hn
    · exact nomatch hr
  cases st with
  | parse n raw => exact hreadings n [raw] (by simpa [Session.events] using h)
  | parseMany n tokens => exact hreadings n tokens (by simpa [Session.events] using h)
  | _ => simp [Session.events] at h

/-- Who reads in a run is a parser that the run leaves behind. -/
theorem mem_parsers_of_history {defaults : Collaborators ε} {s : Session ε}
    {steps : List (Step ε)} {r : Reading ε} (h : .reading r ∈ history defaults s steps) :
    (r.parser, r.cache) ∈ (Session.after defaults s steps).parsers := by
  induction steps generalizing s with
  | nil => exact nomatch h
  | cons first more ih =>
    -- who read at the first step was there from then on
    rcases List.mem_append.1 h with hfirst | hmore
    · exact (parsers_after defaults s (first :: more)).subset (mem_parsers_of_event hfirst)
    · exact ih hmore

/-- Where all parsers that share a cache are alike, each answers for itself. -/
theorem firstAnswer_eq_freshAnswer {defaults : Collaborators ε} {steps : List (Step ε)}
    {p : Parser ε} {key : CacheKey}
    (h : ∀ q, (q, key) ∈ (Session.after defaults empty steps).parsers → q = p) :
    firstAnswer (history defaults empty steps) key p = p.freshAnswer := by
  funext raw
  unfold firstAnswer
  cases hfirst : firstReader? (history defaults empty steps) key raw with
  | none => rfl
  | some q =>
    -- a first reader is one of the parsers that share the cache, and they are all alike
    obtain ⟨r, hr, rfl, rfl⟩ := exists_reading_of_firstReader? hfirst
    exact congrArg (Parser.freshAnswer · raw) (h r.parser (mem_parsers_of_history hr))

/-! ## Answers -/

/-- What a token or several are answered with, as the answer to a step. -/
def asReply {α : Type} (toReply : α → Reply) (answer : Except ε α) : Except (StepError ε) Reply :=
  (answer.mapError .fault).map toReply

/-- The answer that a run gives to the step behind some others. -/
def answerTo? (defaults : Collaborators ε) (before : List (Step ε)) (st : Step ε)
    (rest : List (Step ε)) : Option (Except (StepError ε) Reply) :=
  (run defaults empty (before ++ st :: rest))[before.length]?.map Traced.answer

/-- It is the answer of one step from the state that the steps in front have left. -/
theorem answerTo?_eq (defaults : Collaborators ε) (before : List (Step ε)) (st : Step ε)
    (rest : List (Step ε)) :
    answerTo? defaults before st rest =
      some (Session.step defaults (Session.after defaults empty before) st).1.answer := by
  rw [answerTo?, getElem?_run]
  rfl

/-- After any steps without direct stores a parser answers as the parser does that was the first to
    read the token with success since the cache was last cleared.  If there is none, it answers for
    itself, and a failure is its own.  Where several tokens are asked for, each has its own first
    reader.  A parser that shares its cache with none but its like always answers for itself. -/
theorem run_answers_as_first_reader (defaults : Collaborators ε) {before : List (Step ε)}
    (hbefore : ∀ st ∈ before, st.isStore = false) {n : Nat} {p : Parser ε} {key : CacheKey}
    (hparser : (after defaults empty before).parsers[n]? = some (p, key)) (rest : List (Step ε)) :
    (∀ raw, answerTo? defaults before (.parse n raw) rest =
      some (asReply .candidate (firstAnswer (history defaults empty before) key p raw))) ∧
    (∀ tokens, answerTo? defaults before (.parseMany n tokens) rest =
      some (asReply .results
        (enterAnswers (firstAnswer (history defaults empty before) key p) .empty tokens))) ∧
    ((∀ q, (q, key) ∈ (after defaults empty before).parsers → q = p) →
      (∀ raw, answerTo? defaults before (.parse n raw) rest =
        some (asReply .candidate (p.freshAnswer raw))) ∧
      ∀ tokens, answerTo? defaults before (.parseMany n tokens) rest =
        some (asReply .results (enterAnswers p.freshAnswer .empty tokens))) := by
  -- the cache holds what the first readers made of the tokens
  have hkept := inStep_after defaults hbefore key
  have hone : ∀ raw, answerTo? defaults before (.parse n raw) rest =
      some (asReply .candidate (firstAnswer (history defaults empty before) key p raw)) := by
    intro raw
    -- the parser is asked in the session that the steps before have left
    rw [answerTo?_eq, step, withParser_of_some hparser, ← hkept.parse_answer]
    rfl
  have hmany : ∀ tokens, answerTo? defaults before (.parseMany n tokens) rest =
      some (asReply .results
        (enterAnswers (firstAnswer (history defaults empty before) key p) .empty tokens)) := by
    intro tokens
    rw [answerTo?_eq, step, withParser_of_some hparser, ← (hkept.parseAfter p (.empty _) tokens).1]
    rfl
  -- where the first reader is alike, its answer is the parser's own
  refine ⟨hone, hmany, ?_⟩
  intro hshared
  rw [firstAnswer_eq_freshAnswer hshared] at hone hmany
  exact ⟨hone, hmany⟩

/-- Two parsers share a cache.  One fails on a token, the other rejects it for want of a prefix;
    from then on the first has the rejection for its answer. -/
theorem run_answers_as_first_reader_rejection :
    ∃ before : List (Step Value.Fault), (∀ st ∈ before, st.isStore = false) ∧
      (after .standard empty before).parsers[0]? =
        some (⟨.default, .standard⟩, .named "shared") ∧
      Parser.freshAnswer ⟨.default, .standard⟩ "a-['url(']" = .error .unclosedAddress ∧
      answerTo? .standard before (.parse 0 "a-['url(']") [] = some (.ok (.candidate none)) := by
  let before : List (Step Value.Fault) :=
    [.make ⟨":", [], false⟩ (some "shared") .standard,
      .make ⟨":", "tw-", true⟩ (some "shared") .standard,
      .parse 0 "a-['url(']", .parse 1 "a-['url(']"]
  have hbefore : ∀ st ∈ before, st.isStore = false := by simp [before, Step.isStore]
  have hparser : (after .standard empty before).parsers[0]? =
      some (⟨.default, .standard⟩, .named "shared") := rfl
  -- the failing reading makes no first reader, so the rejecting parser is the first
  have hfirst : firstAnswer (history .standard empty before) (.named "shared")
      ⟨.default, .standard⟩ "a-['url(']" = .ok none := by decide +kernel
  have hanswers := (run_answers_as_first_reader .standard hbefore hparser []).1 "a-['url(']"
  rw [hfirst] at hanswers
  exact ⟨before, hbefore, hparser, by decide +kernel, hanswers⟩

end Session

end UtilityClass
