import UtilityClass.Proofs.Candidate.Trace
import UtilityClass.Proofs.Session.Memo

/-!
# What a session takes

A session reads tokens one by one, each through a cache as the tokens before have left it.  An
`Attempt` is one token put to a parser with the cache as it is found.  A known token takes nothing;
any other takes what it takes without a cache.  As the cache is in step with its history, a token
that was read with success is known until the cache is cleared.

## Key results

- `Attempt.frugal`: what a single attempt takes
- `step_trace`: a step takes what its attempts take, in their order
- `meetKept_chronicle`: every attempt meets a cache that is in step with what was before
- `run_takes_what_is_needed`: no token is judged twice between two clearings
-/

namespace UtilityClass

variable {ε : Type}

/-! ## Attempts -/

/-- A token put to a parser, with the cache as the parser finds it. -/
structure Attempt (ε : Type) where
  parser : Parser ε
  key : CacheKey
  cache : Cache
  raw : Text

namespace Attempt

/-- What is made of the token, and what it takes. -/
def traced (a : Attempt ε) : Traced ε (Option Candidate) := (a.parser.parse a.cache a.raw).1

/-- The attempt as its cache will remember it. -/
def reading (a : Attempt ε) : Reading ε := ⟨a.parser, a.key, a.raw, a.traced.answer⟩

/-- The token is in the cache already. -/
def Known (a : Attempt ε) : Prop := a.cache.contains a.raw = true

/-- A known token takes nothing.  Any other takes the required calls, and leaves one message if it
    is rejected and not empty. -/
structure Frugal (a : Attempt ε) : Prop where
  known : a.Known → a.traced.calls = [] ∧ a.traced.notes = []
  calls : ¬ a.Known → a.traced.calls =
    Candidate.requiredCalls a.parser.collaborators a.parser.config a.raw
  rejected : ¬ a.Known → a.traced.answer = .ok none → a.raw ≠ [] →
    ∃ reason message, Rejection.message? a.raw reason = some message ∧
      a.traced.messages = [message]
  quiet : ¬ a.Known → ¬ (a.traced.answer = .ok none ∧ a.raw ≠ []) → a.traced.messages = []

/-- The result of a known token is given as it is. -/
theorem traced_of_known {a : Attempt ε} (h : a.Known) : ∃ known, a.traced = .done known := by
  obtain ⟨known, hfind⟩ := Option.isSome_iff_exists.1 h
  refine ⟨known, ?_⟩
  rw [traced, Parser.parse, hfind]

/-- A token that is not known is read afresh. -/
theorem traced_of_not_known {a : Attempt ε} (h : ¬ a.Known) :
    a.traced = a.parser.parseFresh a.raw := by
  have hfind : a.cache.find? a.raw = none := by simpa [Known, Ledger.contains] using h
  rw [traced, Parser.parse, hfind]

/-- Every attempt is frugal. -/
theorem frugal (a : Attempt ε) : a.Frugal := by
  by_cases hknown : a.Known
  · obtain ⟨known, htraced⟩ := traced_of_known hknown
    refine ⟨fun _ => ?_, absurd hknown, absurd hknown, absurd hknown⟩
    rw [htraced]
    exact ⟨rfl, rfl⟩
  -- an attempt at an unknown token is the reading of it, whose messages and calls are known
  · have htraced := traced_of_not_known hknown
    have hmessages := Candidate.parse_messages a.parser.collaborators a.parser.config a.raw
    rw [show Candidate.parse a.parser.collaborators a.parser.config a.raw = a.traced from
      htraced.symm] at hmessages
    refine ⟨fun h => absurd h hknown, fun _ => ?_, ?_, ?_⟩
    · rw [htraced]
      exact Candidate.parse_calls _ _ _
    · intro _ hanswer hraw
      rcases hmessages with ⟨-, -, hmessage⟩ | ⟨hnot, -⟩
      · exact hmessage
      · exact absurd ⟨hanswer, hraw⟩ hnot
    · intro _ hnot
      rcases hmessages with ⟨hanswer, hraw, -⟩ | ⟨-, hquiet⟩
      · exact absurd ⟨hanswer, hraw⟩ hnot
      · exact hquiet

end Attempt

namespace Parser

/-- The attempts of a parser that is asked for several tokens: each that has no result yet, up to
    and with the first that fails. -/
def attempts (p : Parser ε) (key : CacheKey) (results cache : Cache) :
    List Text → List (Attempt ε)
  | [] => []
  | raw :: more =>
    if results.contains raw then p.attempts key results cache more
    else
      ⟨p, key, cache, raw⟩ ::
        match (p.parse cache raw).1.answer with
        | .error _ => []
        | .ok known => p.attempts key (results.insert raw known) (p.parse cache raw).2 more

variable {p : Parser ε} {key : CacheKey}

/-- One token is one attempt. -/
theorem attempts_singleton (p : Parser ε) (key : CacheKey) (cache : Cache) (raw : Text) :
    p.attempts key .empty cache [raw] = [⟨p, key, cache, raw⟩] := by
  have hfresh : ¬ (Ledger.empty : Cache).contains raw = true := by simp [Ledger.contains]
  rw [attempts, if_neg hfresh]
  split <;> rfl

/-- What is read is what is attempted. -/
theorem map_attempts (p : Parser ε) (key : CacheKey) (results cache : Cache) (tokens : List Text) :
    (p.attempts key results cache tokens).map Attempt.reading =
      p.readings key results cache tokens := by
  -- token by token, with the results and the cache as the tokens before leave them
  induction tokens generalizing results cache with
  | nil => rfl
  | cons raw more ih =>
    rw [attempts, readings]
    split
    · exact ih _ _
    · rw [List.map_cons]
      dsimp only [Attempt.reading, Attempt.traced]
      cases (p.parse cache raw).1.answer with
      | error e => rfl
      | ok known => exact congrArg (_ :: ·) (ih _ _)

/-- Reading several tokens takes what the attempts take, in their order. -/
theorem parseAfter_trace (p : Parser ε) (key : CacheKey) (results cache : Cache)
    (tokens : List Text) :
    (p.parseAfter results cache tokens).1.calls =
        (p.attempts key results cache tokens).flatMap (·.traced.calls) ∧
      (p.parseAfter results cache tokens).1.notes =
        (p.attempts key results cache tokens).flatMap (·.traced.notes) := by
  -- both are built by the same recursion
  induction tokens generalizing results cache with
  | nil => exact ⟨rfl, rfl⟩
  | cons raw more ih =>
    rw [parseAfter, attempts]
    split
    · exact ih _ _
    · rw [List.flatMap_cons, List.flatMap_cons]
      dsimp only [Attempt.traced]
      cases (p.parse cache raw).1.answer with
      | error e => simp
      | ok known =>
        obtain ⟨hcalls, hnotes⟩ := ih (results.insert raw known) (p.parse cache raw).2
        exact ⟨congrArg (_ ++ ·) hcalls, congrArg (_ ++ ·) hnotes⟩

end Parser

/-! ## Episodes -/

/-- Something that happens to a cache, with what it takes. -/
inductive Episode (ε : Type) where
  | attempt (a : Attempt ε)
  | cleared (cache : CacheKey)

/-- The event that is left in the history of the cache. -/
def Episode.event : Episode ε → Event ε
  | attempt a => .reading a.reading
  | cleared cache => .cleared cache

/-- After some events, every attempt meets a cache that is in step with what was before it. -/
def MeetKept (events : List (Event ε)) : List (Episode ε) → Prop
  | [] => True
  | .attempt a :: more => Kept events a.key a.cache ∧ MeetKept (events ++ [.reading a.reading]) more
  | .cleared key :: more => MeetKept (events ++ [.cleared key]) more

namespace MeetKept

variable {events : List (Event ε)} {key : CacheKey} {cache : Cache}

/-- Episodes that meet caches in step can be put one behind the other. -/
theorem append {first more : List (Episode ε)} (hfirst : MeetKept events first)
    (hmore : MeetKept (events ++ first.map Episode.event) more) :
    MeetKept events (first ++ more) := by
  induction first generalizing events with
  | nil => simpa using hmore
  | cons e first ih =>
    cases e with
    | attempt a => exact ⟨hfirst.1, ih hfirst.2 (by simpa [Episode.event] using hmore)⟩
    | cleared key => exact ih hfirst (by simpa [Episode.event] using hmore)

/-- An attempt within episodes meets a cache that is in step with what was before it. -/
theorem kept {front back : List (Episode ε)} {a : Attempt ε}
    (h : MeetKept events (front ++ .attempt a :: back)) :
    Kept (events ++ front.map Episode.event) a.key a.cache := by
  induction front generalizing events with
  | nil => simpa using h.1
  | cons e front ih =>
    cases e with
    | attempt first => simpa [Episode.event] using ih h.2
    | cleared key => simpa [Episode.event] using ih h

/-- Each attempt of a parser leaves the cache in step for the next one. -/
theorem attempts (h : Kept events key cache) (p : Parser ε) (results : Cache)
    (tokens : List Text) :
    MeetKept events ((p.attempts key results cache tokens).map .attempt) := by
  induction tokens generalizing events results cache with
  | nil => trivial
  | cons raw more ih =>
    rw [Parser.attempts]
    split
    · exact ih h results
    · refine ⟨h, ?_⟩
      -- a failure ends the attempts; an answer is in the cache that the next one meets
      split
      · trivial
      · next known hanswer => exact ih (h.parse p raw) (results.insert raw known)

end MeetKept

/-! ## Sessions -/

/-- Whether the step puts tokens to a numbered parser. -/
def Step.isReading : Step ε → Bool
  | .parse _ _ => true
  | .parseMany _ _ => true
  | _ => false

namespace Session

variable (defaults : Collaborators ε)

/-- The attempts of a numbered parser. -/
def attemptsBy (s : Session ε) (n : Nat) (tokens : List Text) : List (Attempt ε) :=
  match s.parsers[n]? with
  | some (p, key) => p.attempts key .empty (s.cacheAt key) tokens
  | none => []

/-- The attempts of a step. -/
def attempts (s : Session ε) : Step ε → List (Attempt ε)
  | .parse n raw => s.attemptsBy n [raw]
  | .parseMany n tokens => s.attemptsBy n tokens
  | _ => []

/-- The episodes of a step. -/
def episodes (s : Session ε) : Step ε → List (Episode ε)
  | .clear ref => [.cleared (s.keyOf ref)]
  | st => (s.attempts st).map .attempt

/-- The episodes of steps, one step after the other. -/
def chronicle (s : Session ε) : List (Step ε) → List (Episode ε)
  | [] => []
  | first :: more => s.episodes first ++ chronicle (step defaults s first).2 more

variable {defaults} {events : List (Event ε)} {s : Session ε}

/-- The attempts of a numbered parser are its readings. -/
theorem map_event_attemptsBy (s : Session ε) (n : Nat) (tokens : List Text) :
    ((s.attemptsBy n tokens).map Episode.attempt).map Episode.event =
      (s.readings n tokens).map .reading := by
  unfold attemptsBy readings
  cases s.parsers[n]? with
  | none => rfl
  | some entry =>
    -- the parser reads what it attempts
    dsimp only
    rw [← Parser.map_attempts, List.map_map, List.map_map]
    rfl

/-- The history tells of the same episodes. -/
theorem map_event_episodes (s : Session ε) (st : Step ε) :
    (s.episodes st).map Episode.event = s.events st := by
  cases st with
  | parse n raw => exact s.map_event_attemptsBy n [raw]
  | parseMany n tokens => exact s.map_event_attemptsBy n tokens
  | _ => rfl

/-- A numbered parser takes what its attempts take, if its work does. -/
theorem withParser_trace {α : Type} (s : Session ε) (n : Nat) {tokens : List Text}
    {work : Parser ε → Cache → Traced ε α × Cache} (toReply : α → Reply)
    (hwork : ∀ (p : Parser ε) (key : CacheKey) (cache : Cache),
      (work p cache).1.calls = (p.attempts key .empty cache tokens).flatMap (·.traced.calls) ∧
        (work p cache).1.notes = (p.attempts key .empty cache tokens).flatMap (·.traced.notes)) :
    (s.withParser n work toReply).1.calls = (s.attemptsBy n tokens).flatMap (·.traced.calls) ∧
      (s.withParser n work toReply).1.notes =
        (s.attemptsBy n tokens).flatMap (·.traced.notes) := by
  rw [attemptsBy]
  cases hn : s.parsers[n]? with
  | none =>
    rw [withParser_of_none hn]
    exact ⟨rfl, rfl⟩
  | some entry =>
    obtain ⟨p, key⟩ := entry
    rw [withParser_of_some hn]
    exact hwork p key (s.cacheAt key)

/-- A step that reads takes what its attempts take, in their order. -/
theorem step_trace (defaults : Collaborators ε) (s : Session ε) {st : Step ε}
    (hst : st.isReading = true) :
    (step defaults s st).1.calls = (s.attempts st).flatMap (·.traced.calls) ∧
      (step defaults s st).1.notes = (s.attempts st).flatMap (·.traced.notes) := by
  -- a single token is asked for like several; no other step reads
  cases st with
  | parse n raw =>
    refine s.withParser_trace n .candidate ?_
    intro p key cache
    rw [Parser.attempts_singleton]
    simp [Attempt.traced]
  | parseMany n tokens =>
    refine s.withParser_trace n .results ?_
    exact fun p key cache => p.parseAfter_trace key .empty cache tokens
  | _ => exact absurd hst Bool.false_ne_true

/-- The attempts of a step meet caches that are in step. -/
theorem meetKept_episodes (h : InStep events s) (st : Step ε) :
    MeetKept events (s.episodes st) := by
  have hreads : ∀ n tokens, MeetKept events ((s.attemptsBy n tokens).map .attempt) := by
    intro n tokens
    unfold attemptsBy
    split
    · next p key hn => exact .attempts (h key) p .empty tokens
    · trivial
  cases st with
  | parse n raw => exact hreads n [raw]
  | parseMany n tokens => exact hreads n tokens
  | _ => trivial

/-- In a run without direct stores every attempt meets a cache that is in step with what was
    before. -/
theorem meetKept_chronicle (h : InStep events s) {steps : List (Step ε)}
    (hsteps : ∀ st ∈ steps, st.isStore = false) : MeetKept events (chronicle defaults s steps) := by
  -- step by step, with the events of the steps so far
  induction steps generalizing events s with
  | nil => trivial
  | cons first more ih =>
    refine (meetKept_episodes h first).append ?_
    rw [map_event_episodes]
    exact ih (h.step (hsteps first List.mem_cons_self)) fun st hst =>
      hsteps st (List.mem_cons_of_mem _ hst)

/-- A token that was read with success is known until the cache is cleared. -/
theorem known_of_earlier {steps : List (Step ε)} (hsteps : ∀ st ∈ steps, st.isStore = false)
    {front between back : List (Episode ε)} {earlier later : Attempt ε}
    (hchronicle : chronicle defaults empty steps =
      front ++ .attempt earlier :: between ++ .attempt later :: back)
    (hkey : later.key = earlier.key) (hraw : later.raw = earlier.raw)
    (hanswer : earlier.traced.answer.isOk = true) (hclear : .cleared earlier.key ∉ between) :
    later.Known := by
  have hmeet : MeetKept [] (chronicle defaults empty steps) :=
    meetKept_chronicle inStep_empty hsteps
  rw [hchronicle] at hmeet
  have hkept : Kept (front.map Episode.event ++ [.reading earlier.reading] ++
      between.map Episode.event) later.key later.cache := by
    simpa [Episode.event] using hmeet.kept
  -- no clearing of this cache comes between the two attempts
  have hbetween : ∀ e ∈ between.map Episode.event, e.clears earlier.key = false := by
    intro e he
    obtain ⟨episode, hepisode, rfl⟩ := List.mem_map.1 he
    cases episode with
    | attempt a => rfl
    | cleared key =>
      apply beq_eq_false_iff_ne.2
      rintro rfl
      exact hclear hepisode
  -- behind the earlier attempt there is a first reader, who stays
  obtain ⟨q, hq⟩ := exists_firstReader?_append_reading (front.map Episode.event)
    (r := earlier.reading) hanswer
  have hfirst := firstReader?_append_of_not_cleared hq hbetween
  rw [show earlier.reading.cache = later.key from hkey.symm,
    show earlier.reading.raw = later.raw from hraw.symm] at hfirst
  exact hkept.contains_of_firstReader? hfirst

/-- In a run without direct stores, a step takes what its attempts take.  An attempt at a known
    token takes nothing, and any other takes the required calls and leaves one message if the token
    is rejected and not empty.  So nothing is taken twice for a token between two clearings of a
    cache, unless the earlier attempt failed. -/
theorem run_takes_what_is_needed (defaults : Collaborators ε) {steps : List (Step ε)}
    (hsteps : ∀ st ∈ steps, st.isStore = false) :
    (∀ before st rest, steps = before ++ st :: rest → st.isReading = true →
      (run defaults empty steps)[before.length]?.map (fun t => (t.calls, t.notes)) =
        some (((after defaults empty before).attempts st).flatMap (·.traced.calls),
          ((after defaults empty before).attempts st).flatMap (·.traced.notes))) ∧
    (∀ a, .attempt a ∈ chronicle defaults empty steps → a.Frugal) ∧
    (∀ front earlier between later back, chronicle defaults empty steps =
        front ++ .attempt earlier :: between ++ .attempt later :: back →
      later.key = earlier.key → later.raw = earlier.raw →
      earlier.traced.answer.isOk = true → .cleared earlier.key ∉ between →
      later.Known ∧ later.traced.calls = [] ∧ later.traced.notes = []) := by
  refine ⟨?_, fun a _ => a.frugal, ?_⟩
  -- what the attempts take is what the step takes
  · intro before st rest hsplit hst
    obtain ⟨hcalls, hnotes⟩ := step_trace defaults (after defaults empty before) hst
    rw [hsplit, getElem?_run, Option.map_some, hcalls, hnotes]
  -- the later attempt is at a known token
  · intro front earlier between later back hchronicle hkey hraw hanswer hclear
    have hknown := known_of_earlier hsteps hchronicle hkey hraw hanswer hclear
    exact ⟨hknown, later.frugal.known hknown⟩

/-- Two parsers share a cache.  The first is asked for several tokens, with one of them twice, and
    rejects one; the rejection is neither judged nor noted again when the second is asked. -/
theorem run_takes_what_is_needed_rejection :
    ∃ (steps : List (Step Value.Fault)) (first earlier later : Attempt Value.Fault),
      (∀ st ∈ steps, st.isStore = false) ∧
      chronicle .standard empty steps = [.attempt first, .attempt earlier, .attempt later] ∧
      first.traced.calls = [.value "b", .canonical "b"] ∧
      earlier.traced.calls = [.value ";"] ∧
      earlier.traced.messages = ["rejected 'a-[;]': invalid arbitrary value ';'".toList] ∧
      later.parser ≠ earlier.parser ∧
      later.Known ∧ later.traced.calls = [] ∧ later.traced.notes = [] := by
  let plain : Parser Value.Fault := ⟨.default, .standard⟩
  let prefixed : Parser Value.Fault :=
    ⟨⟨":", "tw-", true, by decide, by decide, by decide⟩, .standard⟩
  let steps : List (Step Value.Fault) :=
    [.make ⟨":", [], false⟩ (some "shared") .standard,
      .make ⟨":", "tw-", true⟩ (some "shared") .standard,
      .parseMany 0 ["a-[b]", "a-[b]", "a-[;]"], .parse 1 "a-[;]"]
  let first : Attempt Value.Fault := ⟨plain, .named "shared", .empty, "a-[b]"⟩
  let earlier : Attempt Value.Fault :=
    ⟨plain, .named "shared", (plain.parse first.cache first.raw).2, "a-[;]"⟩
  let later : Attempt Value.Fault :=
    ⟨prefixed, .named "shared", (plain.parse earlier.cache earlier.raw).2, "a-[;]"⟩
  have hsteps : ∀ st ∈ steps, st.isStore = false := by simp [steps, Step.isStore]
  have hchronicle : chronicle .standard empty steps =
      [.attempt first, .attempt earlier, .attempt later] := by
    with_unfolding_all rfl
  have hparser : later.parser ≠ earlier.parser :=
    fun h => absurd (congrArg (·.config.stripPrefix) h) (by decide)
  have hlater := (run_takes_what_is_needed .standard hsteps).2.2 [.attempt first] earlier []
    later [] hchronicle rfl rfl (by decide +kernel) (by simp)
  exact ⟨steps, first, earlier, later, hsteps, hchronicle, by decide +kernel, by decide +kernel,
    by decide +kernel, hparser, hlater⟩

end Session

end UtilityClass
