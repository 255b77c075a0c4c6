import UtilityClass.Session

/-!
# Histories of caches

What happens to the caches of a session is a sequence of readings and clearings.  A reading keeps
who read which token through which cache, and the answer.  The first reader of a token is the parser
whose reading of it was the first with an answer since the cache was cleared.

A cache holds exactly the answers of the first readers (`Kept`).  A parser that reads on does not
change who answers for a token: it asks the first reader's answer of the cache, or becomes the first
reader itself.

## Key results

- `firstReader?_append`: one more event changes the first reader only where there was none
- `Kept.parse_answer`: a parser answers as the first reader does, or else for itself
- `Kept.parse`: reading a token keeps the cache in step with its history
- `Kept.parseAfter`: so does reading tokens up to the first failure
-/

namespace UtilityClass

variable {ε : Type}

/-- A token that was read by a parser through a cache, and the answer. -/
structure Reading (ε : Type) where
  parser : Parser ε
  cache : CacheKey
  raw : Text
  answer : Except ε (Option Candidate)

/-- Something that happens to a cache. -/
inductive Event (ε : Type) where
  | reading (r : Reading ε)
  | cleared (cache : CacheKey)

namespace Event

/-- Whether the event clears the cache. -/
def clears (key : CacheKey) : Event ε → Bool
  | reading _ => false
  | cleared cache => cache == key

/-- The parser that reads the token through the cache, if the event is such a reading and has an
    answer, be it a candidate or none. -/
def reader? (key : CacheKey) (raw : Text) : Event ε → Option (Parser ε)
  | reading r => if r.cache = key ∧ r.raw = raw ∧ r.answer.isOk then some r.parser else none
  | cleared _ => none

end Event

/-- The events since the cache was last cleared. -/
def sinceCleared (key : CacheKey) (events : List (Event ε)) : List (Event ε) :=
  (events.reverse.takeWhile fun e => !e.clears key).reverse

/-- The parser that was the first to read the token through the cache with success since the cache
    was last cleared. -/
def firstReader? (events : List (Event ε)) (key : CacheKey) (raw : Text) : Option (Parser ε) :=
  (sinceCleared key events).findSome? (Event.reader? key raw)

/-- What the parser makes of a token without any cache. -/
def Parser.freshAnswer (p : Parser ε) (raw : Text) : Except ε (Option Candidate) :=
  (p.parseFresh raw).answer

/-- The answer that counts when `p` is asked: that of the first reader of the token, or else that
    of `p` itself. -/
def firstAnswer (events : List (Event ε)) (key : CacheKey) (p : Parser ε) (raw : Text) :
    Except ε (Option Candidate) :=
  ((firstReader? events key raw).getD p).freshAnswer raw

/-- Enters the answers to tokens one by one; the first failure is the failure of all. -/
def enterAnswers (answer : Text → Except ε (Option Candidate)) (results : Cache)
    (tokens : List Text) : Except ε Cache :=
  tokens.foldlM (fun results raw => (answer raw).map (results.insert raw)) results

/-- The tokens that a parser reads when it is asked for several: each that has no result yet, up to
    and with the first that fails. -/
def Parser.readings (p : Parser ε) (key : CacheKey) (results cache : Cache) :
    List Text → List (Reading ε)
  | [] => []
  | raw :: more =>
    if results.contains raw then p.readings key results cache more
    else
      let (first, cache') := p.parse cache raw
      ⟨p, key, raw, first.answer⟩ ::
        match first.answer with
        | .error _ => []
        | .ok known => p.readings key (results.insert raw known) cache' more

/-! ## Readings -/

/-- One token is one reading. -/
theorem Parser.readings_singleton (p : Parser ε) (key : CacheKey) (cache : Cache) (raw : Text) :
    p.readings key .empty cache [raw] = [⟨p, key, raw, (p.parse cache raw).1.answer⟩] := by
  have hfresh : ¬ (Ledger.empty : Cache).contains raw = true := by simp [Ledger.contains]
  rw [readings, if_neg hfresh]
  dsimp only
  split <;> rfl

/-- A parser reads for itself, through the cache that it is given. -/
theorem Parser.mem_readings {p : Parser ε} {key : CacheKey} {results cache : Cache}
    {tokens : List Text} {r : Reading ε} (h : r ∈ p.readings key results cache tokens) :
    r.parser = p ∧ r.cache = key := by
  -- token by token; those with a result are passed over
  induction tokens generalizing results cache with
  | nil => exact nomatch h
  | cons raw more ih =>
    rw [readings] at h
    split at h
    · exact ih h
    · rcases List.mem_cons.1 h with rfl | h
      · exact ⟨rfl, rfl⟩
      · split at h
        · exact nomatch h
        · exact ih h

/-! ## First readers -/

/-- A clearing leaves nothing of the cache behind it, and any other event comes last. -/
theorem sinceCleared_append (key : CacheKey) (events : List (Event ε)) (e : Event ε) :
    sinceCleared key (events ++ [e]) =
      if e.clears key then [] else sinceCleared key events ++ [e] := by
  unfold sinceCleared
  -- read from the end, the new event is met first
  rw [List.reverse_append, List.reverse_singleton, List.singleton_append, List.takeWhile_cons]
  cases e.clears key <;> simp

/-- One more event changes the first reader only where there was none, or by clearing the cache. -/
theorem firstReader?_append (events : List (Event ε)) (e : Event ε) (key : CacheKey) (raw : Text) :
    firstReader? (events ++ [e]) key raw =
      if e.clears key then none else (firstReader? events key raw).or (e.reader? key raw) := by
  unfold firstReader?
  rw [sinceCleared_append]
  split
  · rfl
  · simp [List.findSome?_append]

/-- One more reading changes the first reader only where there was none. -/
theorem firstReader?_append_reading (events : List (Event ε)) (r : Reading ε) (key : CacheKey)
    (raw : Text) :
    firstReader? (events ++ [.reading r]) key raw =
      (firstReader? events key raw).or
        (if r.cache = key ∧ r.raw = raw ∧ r.answer.isOk then some r.parser else none) :=
  firstReader?_append events (.reading r) key raw

/-- The first reader is one of those who have read through the cache. -/
theorem exists_reading_of_firstReader? {events : List (Event ε)} {key : CacheKey} {raw : Text}
    {q : Parser ε} (h : firstReader? events key raw = some q) :
    ∃ r, .reading r ∈ events ∧ r.cache = key ∧ r.parser = q := by
  obtain ⟨e, he, hreader⟩ := List.exists_of_findSome?_eq_some h
  have hmem : e ∈ events :=
    List.mem_reverse.1 ((List.takeWhile_sublist _).subset (List.mem_reverse.1 he))
  cases e with
  | cleared cache => exact nomatch hreader
  | reading r =>
    rw [Event.reader?] at hreader
    split at hreader
    · next hr => exact ⟨r, hmem, hr.1, Option.some.inj hreader⟩
    · exact nomatch hreader

/-- Behind a reading with an answer there is a first reader, be it this one or one before. -/
theorem exists_firstReader?_append_reading (events : List (Event ε)) {r : Reading ε}
    (h : r.answer.isOk = true) :
    ∃ q, firstReader? (events ++ [.reading r]) r.cache r.raw = some q := by
  rw [firstReader?_append_reading, if_pos ⟨rfl, rfl, h⟩]
  cases firstReader? events r.cache r.raw with
  | none => exact ⟨r.parser, rfl⟩
  | some q => exact ⟨q, rfl⟩

/-- A first reader stays first until the cache is cleared. -/
theorem firstReader?_append_of_not_cleared {events more : List (Event ε)} {key : CacheKey}
    {raw : Text} {q : Parser ε} (h : firstReader? events key raw = some q)
    (hmore : ∀ e ∈ more, e.clears key = false) :
    firstReader? (events ++ more) key raw = some q := by
  -- event by event; none of them clears the cache
  induction more generalizing events with
  | nil => rwa [List.append_nil]
  | cons e more ih =>
    have hnext : firstReader? (events ++ [e]) key raw = some q := by
      rw [firstReader?_append, hmore e List.mem_cons_self, h]
      rfl
    have hend := ih hnext fun e' he' => hmore e' (List.mem_cons_of_mem _ he')
    rwa [List.append_assoc] at hend

/-- Readings through other caches do not matter. -/
theorem firstReader?_append_readings {readings : List (Reading ε)} {key : CacheKey}
    (h : ∀ r ∈ readings, r.cache ≠ key) (events : List (Event ε)) (raw : Text) :
    firstReader? (events ++ readings.map .reading) key raw = firstReader? events key raw := by
  -- reading by reading; each is left out by its cache
  induction readings generalizing events with
  | nil => simp
  | cons r more ih =>
    have hother : ¬ (r.cache = key ∧ r.raw = raw ∧ r.answer.isOk) :=
      fun hr => h r List.mem_cons_self hr.1
    have hmore := ih (fun r' hr' => h r' (List.mem_cons_of_mem _ hr')) (events ++ [.reading r])
    rw [List.append_assoc] at hmore
    rw [List.map_cons, ← List.singleton_append, hmore, firstReader?_append_reading, if_neg hother,
      Option.or_none]

/-- A parser that reads on does not change the answers that count when it is asked. -/
theorem firstAnswer_append_reading (events : List (Event ε)) (key : CacheKey) (p : Parser ε)
    (raw : Text) (answer : Except ε (Option Candidate)) :
    firstAnswer (events ++ [.reading ⟨p, key, raw, answer⟩]) key p = firstAnswer events key p := by
  funext raw'
  unfold firstAnswer
  rw [firstReader?_append_reading]
  cases firstReader? events key raw' with
  | some q => rfl
  | none =>
    -- there is still no first reader, or it is `p`, who answers either way
    rw [Option.none_or]
    split <;> rfl

/-! ## Results -/

/-- Every result is the answer to its token. -/
def Answered (answer : Text → Except ε (Option Candidate)) (results : Cache) : Prop :=
  ∀ raw known, results.find? raw = some known → answer raw = .ok known

/-- No results are to be answered. -/
theorem Answered.empty (answer : Text → Except ε (Option Candidate)) : Answered answer .empty :=
  fun _ _ hfind => nomatch hfind

/-- A result may be added with the answer to its token. -/
theorem Answered.insert {answer : Text → Except ε (Option Candidate)} {results : Cache} {raw : Text}
    {known : Option Candidate} (h : Answered answer results) (hraw : answer raw = .ok known) :
    Answered answer (results.insert raw known) := by
  intro raw' known' hfind
  rw [Ledger.find?_insert] at hfind
  split at hfind
  -- the added token has its own answer, and the others have theirs as before
  · next heq =>
    obtain rfl : known = known' := Option.some.inj hfind
    rw [heq, hraw]
  · exact h raw' known' hfind

/-! ## Caches in step with their history -/

/-- What the cache knows of a token is the answer of the first reader, if there is one. -/
def Kept (events : List (Event ε)) (key : CacheKey) (cache : Cache) : Prop :=
  ∀ raw, (cache.find? raw).map Except.ok =
    (firstReader? events key raw).map fun q => q.freshAnswer raw

namespace Kept

variable {events : List (Event ε)} {key : CacheKey} {cache : Cache}

/-- A token that the cache does not know has no first reader. -/
theorem firstReader?_of_find?_eq_none (h : Kept events key cache) {raw : Text}
    (hfind : cache.find? raw = none) : firstReader? events key raw = none := by
  have hraw := h raw
  rw [hfind, Option.map_none, eq_comm, Option.map_eq_none_iff] at hraw
  exact hraw

/-- What the cache knows of a token is what the first reader made of it. -/
theorem firstReader?_of_find?_eq_some (h : Kept events key cache) {raw : Text}
    {known : Option Candidate} (hfind : cache.find? raw = some known) :
    ∃ q, firstReader? events key raw = some q ∧ q.freshAnswer raw = .ok known := by
  have hraw := h raw
  rw [hfind, Option.map_some, eq_comm, Option.map_eq_some_iff] at hraw
  exact hraw

/-- A token with a first reader is in the cache. -/
theorem contains_of_firstReader? (h : Kept events key cache) {raw : Text} {q : Parser ε}
    (hq : firstReader? events key raw = some q) : cache.contains raw = true := by
  -- a token that is not known has no first reader
  cases hfind : cache.find? raw with
  | none =>
    rw [h.firstReader?_of_find?_eq_none hfind] at hq
    exact nomatch hq
  | some known => rw [Ledger.contains, hfind, Option.isSome_some]

/-- A parser answers as the first reader does, or else for itself. -/
theorem parse_answer (h : Kept events key cache) (p : Parser ε) (raw : Text) :
    (p.parse cache raw).1.answer = firstAnswer events key p raw := by
  unfold firstAnswer Parser.parse
  cases hfind : cache.find? raw with
  | none =>
    rw [h.firstReader?_of_find?_eq_none hfind]
    rfl
  | some known =>
    obtain ⟨q, hq, hanswer⟩ := h.firstReader?_of_find?_eq_some hfind
    rw [hq, Option.getD_some, hanswer]
    rfl

/-- Reading a token keeps the cache in step: what is known already stays, and what is entered is the
    answer of the parser that becomes the first reader. -/
theorem parse (h : Kept events key cache) (p : Parser ε) (raw : Text) :
    Kept (events ++ [.reading ⟨p, key, raw, (p.parse cache raw).1.answer⟩]) key
      (p.parse cache raw).2 := by
  intro raw'
  rw [firstReader?_append_reading]
  unfold Parser.parse
  -- a known token is not read again, and another one is read for the first time
  cases hfind : cache.find? raw with
  | some known =>
    obtain ⟨q, hq, -⟩ := h.firstReader?_of_find?_eq_some hfind
    by_cases heq : raw = raw'
    · -- the first reader was there before, so this reading is not the first
      subst heq
      simp only [hq, Option.some_or]
      rw [h raw, hq]
    · simp only [heq, false_and, and_false, if_false, Option.or_none]
      exact h raw'
  | none =>
    dsimp only
    rw [show (p.parseFresh raw).answer = p.freshAnswer raw from rfl]
    cases hfresh : p.freshAnswer raw with
    | error e =>
      -- a failure enters nothing and makes no first reader
      simp only [Parser.remember, Except.isOk, Except.toBool, Bool.false_eq_true, and_false,
        if_false, Option.or_none]
      exact h raw'
    | ok known =>
      simp only [Parser.remember, Ledger.find?_insert, Except.isOk, Except.toBool, and_true,
        true_and]
      by_cases heq : raw' = raw
      · -- the parser becomes the first reader, and its answer is the one entered
        subst heq
        rw [h.firstReader?_of_find?_eq_none hfind]
        simp [hfresh]
      · rw [if_neg heq, if_neg (Ne.symm heq), Option.or_none]
        exact h raw'

/-- Reading tokens gives the answers of the first readers, entered one by one, and keeps the cache
    in step.  It does not matter that the first readers are taken from before the first token. -/
theorem parseAfter (h : Kept events key cache) (p : Parser ε) {results : Cache}
    (hresults : Answered (firstAnswer events key p) results) (tokens : List Text) :
    (p.parseAfter results cache tokens).1.answer =
        enterAnswers (firstAnswer events key p) results tokens ∧
      Kept (events ++ (p.readings key results cache tokens).map .reading) key
        (p.parseAfter results cache tokens).2 := by
  -- each token is read after a history of its own, with the same answers as before
  induction tokens generalizing events results cache with
  | nil => exact ⟨rfl, by simpa [Parser.readings, Parser.parseAfter] using h⟩
  | cons raw more ih =>
    have hanswer := h.parse_answer p raw
    have hkept := h.parse p raw
    rw [Parser.parseAfter, Parser.readings, enterAnswers, List.foldlM_cons]
    by_cases hknown : results.contains raw = true
    · -- a token with a result is passed over, and entering its answer again changes nothing
      obtain ⟨known, hfind⟩ := Option.isSome_iff_exists.1 hknown
      rw [if_pos hknown, if_pos hknown, hresults raw known hfind]
      simp only [Except.map, Ledger.insert_eq_self hfind]
      exact ih h hresults
    · rw [if_neg hknown, if_neg hknown, ← hanswer]
      dsimp only
      cases hfirst : (p.parse cache raw).1.answer with
      | error e =>
        rw [hfirst] at hkept
        exact ⟨rfl, hkept⟩
      | ok known =>
        rw [hfirst] at hkept hanswer
        have hinsert : Answered (firstAnswer (events ++ [.reading ⟨p, key, raw, .ok known⟩]) key p)
            (results.insert raw known) := by
          rw [firstAnswer_append_reading]
          exact hresults.insert hanswer.symm
        obtain ⟨hmoreAnswer, hmoreKept⟩ := ih hkept hinsert
        rw [firstAnswer_append_reading] at hmoreAnswer
        exact ⟨hmoreAnswer, by simpa using hmoreKept⟩

end Kept

end UtilityClass
