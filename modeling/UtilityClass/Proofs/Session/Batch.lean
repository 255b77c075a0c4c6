import Mathlib.Data.List.TakeWhile
import UtilityClass.Proofs.Gate
import UtilityClass.Proofs.Ledger
import UtilityClass.Proofs.Session.History

/-!
# Reading several tokens through any cache

A parser that is asked for several tokens stops at the first one that it has no answer to.  Reading
a token changes no answer, neither to this token nor to another one.  So the answers are known
before the first token is read: each is what the cache holds at the start, or else the parser's
own.  What was read before the failure stays in the cache, and nothing else has come into it.

## Key results

- `answerThrough_parse`: reading a token changes no answer
- `parseAfter_eq`: which answers are given, and which tokens are read
- `gains_cacheAfter`: what the cache gains by the tokens that are read
- `parseMany_stops_at_failure`: reading several tokens answers all of them, or keeps the ones before
  the first failure
-/

namespace UtilityClass

variable {ε : Type}

/-! ## Answers to several tokens -/

/-- An answer to the first token is entered, and the other tokens come after it. -/
theorem enterAnswers_cons_of_ok {answer : Text → Except ε (Option Candidate)} {raw : Text}
    {known : Option Candidate} (h : answer raw = .ok known) (results : Cache) (more : List Text) :
    enterAnswers answer results (raw :: more) =
      enterAnswers answer (results.insert raw known) more := by
  rw [enterAnswers, List.foldlM_cons, h]
  rfl

/-- A failure at the first token is the failure of all. -/
theorem enterAnswers_cons_of_error {answer : Text → Except ε (Option Candidate)} {raw : Text}
    {e : ε} (h : answer raw = .error e) (results : Cache) (more : List Text) :
    enterAnswers answer results (raw :: more) = .error e := by
  rw [enterAnswers, List.foldlM_cons, h]
  rfl

/-- If every token has an answer, each has its own among the results, in the order in which the
    tokens first occur. -/
theorem enterAnswers_of_isOk {answer : Text → Except ε (Option Candidate)} {results : Cache}
    {tokens : List Text} (htokens : ∀ raw ∈ tokens, (answer raw).isOk = true)
    (hresults : Answered answer results) :
    ∃ results', enterAnswers answer results tokens = .ok results' ∧ Answered answer results' ∧
      results'.keys = results.keys ++ results.newKeys tokens := by
  -- the results are those of the tokens so far, and what is still to be entered is left to the
  -- others
  induction tokens generalizing results with
  | nil => exact ⟨results, rfl, hresults, by rw [Ledger.newKeys_nil, List.append_nil]⟩
  | cons raw more ih =>
    obtain ⟨known, hraw⟩ : ∃ known, answer raw = .ok known := by
      have hok := htokens raw List.mem_cons_self
      cases hraw : answer raw with
      | ok known => exact ⟨known, rfl⟩
      | error e => exact nomatch hraw ▸ hok
    obtain ⟨results', hmore, hanswered, hkeys⟩ :=
      ih (fun raw' h => htokens raw' (List.mem_cons_of_mem _ h)) (hresults.insert hraw)
    refine ⟨results', ?_, hanswered, ?_⟩
    · rw [enterAnswers_cons_of_ok hraw, hmore]
    -- a token that has a result keeps its place, and a new one comes behind the results so far
    · rw [hkeys, Ledger.keys_insert_append_newKeys]

/-- Answers that could be entered are the tokens' own. -/
theorem answered_of_enterAnswers {answer : Text → Except ε (Option Candidate)}
    {results results' : Cache} {tokens : List Text} (hresults : Answered answer results)
    (h : enterAnswers answer results tokens = .ok results') : Answered answer results' := by
  induction tokens generalizing results with
  | nil =>
    obtain rfl : results = results' := Except.ok.inj h
    exact hresults
  | cons raw more ih =>
    -- nothing was entered if a token failed
    cases hraw : answer raw with
    | error e =>
      rw [enterAnswers_cons_of_error hraw] at h
      exact nomatch h
    | ok known =>
      rw [enterAnswers_cons_of_ok hraw] at h
      exact ih (hresults.insert hraw) h

/-- The first failure is the failure of all. -/
theorem enterAnswers_of_error {answer : Text → Except ε (Option Candidate)}
    {before rest : List Text} {t : Text} {e : ε}
    (hbefore : ∀ raw ∈ before, (answer raw).isOk = true) (ht : answer t = .error e)
    (results : Cache) :
    enterAnswers answer results (before ++ t :: rest) = .error e := by
  induction before generalizing results with
  | nil => exact enterAnswers_cons_of_error ht results rest
  | cons raw more ih =>
    -- the tokens before have answers, which are entered first
    cases hraw : answer raw with
    | error e' => exact nomatch hraw ▸ hbefore raw List.mem_cons_self
    | ok known =>
      rw [List.cons_append, enterAnswers_cons_of_ok hraw]
      exact ih (fun raw' h => hbefore raw' (List.mem_cons_of_mem _ h)) _

namespace Parser

/-! ## Reading one token -/

/-- The answer to a token that is read through a cache: what is known of it, or else what the parser
    makes of it. -/
def answerThrough (p : Parser ε) (cache : Cache) (raw : Text) : Except ε (Option Candidate) :=
  match cache.find? raw with
  | some known => .ok known
  | none => p.freshAnswer raw

variable {p : Parser ε} {cache : Cache} {raw : Text}

/-- A known token is answered by what is known of it. -/
theorem answerThrough_of_known {known : Option Candidate} (h : cache.find? raw = some known) :
    p.answerThrough cache raw = .ok known := by
  rw [answerThrough, h]

/-- A token that is not known is answered by the parser. -/
theorem answerThrough_of_unknown (h : cache.find? raw = none) :
    p.answerThrough cache raw = p.freshAnswer raw := by
  rw [answerThrough, h]

/-- A known token is given back as it is known, and the cache stays. -/
theorem parse_of_known {known : Option Candidate} (h : cache.find? raw = some known) :
    p.parse cache raw = (.done known, cache) := by
  rw [parse, h]

/-- A token that is not known is read, and its answer is remembered. -/
theorem parse_of_unknown (h : cache.find? raw = none) :
    p.parse cache raw = (p.parseFresh raw, remember cache raw (p.freshAnswer raw)) := by
  rw [parse, h]
  rfl

/-- Reading a token answers it through the cache. -/
theorem parse_answer (p : Parser ε) (cache : Cache) (raw : Text) :
    (p.parse cache raw).1.answer = p.answerThrough cache raw := by
  cases hfind : cache.find? raw with
  | some known =>
    rw [parse_of_known hfind, answerThrough_of_known hfind]
    rfl
  | none =>
    rw [parse_of_unknown hfind, answerThrough_of_unknown hfind]
    rfl

/-- Reading a known token leaves the cache as it is. -/
theorem parse_cache_of_known (h : raw ∈ cache.keys) : (p.parse cache raw).2 = cache := by
  obtain ⟨known, hknown⟩ := (Ledger.mem_keys_iff_exists _ _).1 h
  rw [parse_of_known hknown]

/-- A failure leaves the cache as it is. -/
theorem parse_cache_of_error {e : ε} (h : p.answerThrough cache raw = .error e) :
    (p.parse cache raw).2 = cache := by
  -- a known token enters nothing, and neither does a failure of the parser's own
  cases hfind : cache.find? raw with
  | some known => rw [parse_of_known hfind]
  | none =>
    rw [answerThrough_of_unknown hfind] at h
    rw [parse_of_unknown hfind, h]
    rfl

/-- The answer to a token that was not known is entered. -/
theorem parse_cache_of_unknown {known : Option Candidate} (hfind : cache.find? raw = none)
    (h : p.freshAnswer raw = .ok known) : (p.parse cache raw).2 = cache.insert raw known := by
  rw [parse_of_unknown hfind, h]
  rfl

/-- A token that was read is known with its answer, and all others are as before. -/
theorem find?_parse {known : Option Candidate} (h : p.answerThrough cache raw = .ok known)
    (raw' : Text) :
    (p.parse cache raw).2.find? raw' = if raw' = raw then some known else cache.find? raw' := by
  -- a known token had this answer before; otherwise the answer is the only entry that is new
  cases hfind : cache.find? raw with
  | some known' =>
    obtain rfl : known' = known := Except.ok.inj ((answerThrough_of_known hfind).symm.trans h)
    rw [parse_of_known hfind]
    split
    · next heq => rw [heq, hfind]
    · rfl
  | none =>
    rw [answerThrough_of_unknown hfind] at h
    rw [parse_cache_of_unknown hfind h]
    exact Ledger.find?_insert cache raw raw' known

/-- Reading a token changes no answer: the answer that is entered is the one that the parser would
    give again. -/
theorem answerThrough_parse (p : Parser ε) (cache : Cache) (raw : Text) :
    p.answerThrough (p.parse cache raw).2 = p.answerThrough cache := by
  -- a failure leaves the cache; an answer is found again under its token, and no other token has
  -- changed
  cases hraw : p.answerThrough cache raw with
  | error e => rw [parse_cache_of_error hraw]
  | ok known =>
    funext raw'
    rw [answerThrough, find?_parse hraw]
    by_cases heq : raw' = raw
    · rw [if_pos heq, heq, hraw]
    · rw [if_neg heq]
      rfl

/-! ## Reading token after token -/

/-- The cache once the tokens have been read one after the other, failing ones passed over. -/
def cacheAfter (p : Parser ε) (cache : Cache) (tokens : List Text) : Cache :=
  tokens.foldl (fun cache raw => (p.parse cache raw).2) cache

/-- The cache behind the first token is the one that the others are read through. -/
theorem cacheAfter_cons (p : Parser ε) (cache : Cache) (raw : Text) (more : List Text) :
    p.cacheAfter cache (raw :: more) = p.cacheAfter (p.parse cache raw).2 more := rfl

/-- Tokens can be read in two parts. -/
theorem cacheAfter_append (p : Parser ε) (cache : Cache) (first more : List Text) :
    p.cacheAfter cache (first ++ more) = p.cacheAfter (p.cacheAfter cache first) more :=
  List.foldl_append

/-- Reading tokens changes no answer. -/
theorem answerThrough_cacheAfter (p : Parser ε) (cache : Cache) (tokens : List Text) :
    p.answerThrough (p.cacheAfter cache tokens) = p.answerThrough cache := by
  -- token by token, with a cache that is another one but answers alike
  induction tokens generalizing cache with
  | nil => rfl
  | cons raw more ih => rw [cacheAfter_cons, ih, answerThrough_parse]

/-- Reading known tokens leaves the cache as it is. -/
theorem cacheAfter_of_known {tokens : List Text} (h : ∀ raw ∈ tokens, raw ∈ cache.keys) :
    p.cacheAfter cache tokens = cache := by
  induction tokens with
  | nil => rfl
  | cons raw more ih =>
    rw [cacheAfter_cons, parse_cache_of_known (h raw List.mem_cons_self)]
    exact ih fun raw' hraw' => h raw' (List.mem_cons_of_mem _ hraw')

/-- A token that is known behind the others is known with its answer, which is still the same. -/
theorem find?_cacheAfter {tokens : List Text} {known : Option Candidate}
    (hmem : raw ∈ (p.cacheAfter cache tokens).keys) (h : p.answerThrough cache raw = .ok known) :
    (p.cacheAfter cache tokens).find? raw = some known := by
  -- it is known with some answer, and reading changes none, so with the one it had at the start
  obtain ⟨known', hfind⟩ := (Ledger.mem_keys_iff_exists _ _).1 hmem
  have hagain := answerThrough_of_known (p := p) hfind
  rw [answerThrough_cacheAfter, h] at hagain
  rw [hfind, Except.ok.inj hagain]

/-- A cache has gained tokens: it holds all that it held before, and behind that each token that it
    did not hold, once, in the order in which they first occur, with what the parser makes of it. -/
def Gains (p : Parser ε) (cache : Cache) (tokens : List Text) (cache' : Cache) : Prop :=
  ∃ gained, cache'.entries = cache.entries ++ gained ∧
    gained.map Prod.fst = cache.newKeys tokens ∧
    ∀ entry ∈ gained, p.freshAnswer entry.1 = .ok entry.2

/-- Tokens that all have an answer are gained by reading them. -/
theorem gains_cacheAfter {tokens : List Text}
    (h : ∀ raw ∈ tokens, (p.answerThrough cache raw).isOk = true) :
    p.Gains cache tokens (p.cacheAfter cache tokens) := by
  induction tokens generalizing cache with
  | nil => exact ⟨[], by simp [cacheAfter], by rw [Ledger.newKeys_nil]; rfl, by simp⟩
  | cons raw more ih =>
    -- the others are still answered once the first is read, so the induction covers what they gain
    have hmore : ∀ raw' ∈ more, (p.answerThrough (p.parse cache raw).2 raw').isOk = true := by
      rw [answerThrough_parse]
      exact fun raw' hraw' => h raw' (List.mem_cons_of_mem _ hraw')
    obtain ⟨gained, hentries, hkeys, hgained⟩ := ih hmore
    rw [cacheAfter_cons]
    by_cases hmem : raw ∈ cache.keys
    · rw [parse_cache_of_known hmem] at hentries hkeys ⊢
      exact ⟨gained, hentries, by rw [hkeys, Ledger.newKeys_cons_of_mem hmem], hgained⟩
    · -- the token is not known, so its answer is the parser's own, and comes first
      have hfind := (Ledger.find?_eq_none_iff cache raw).2 hmem
      have hraw := h raw List.mem_cons_self
      rw [answerThrough_of_unknown hfind] at hraw
      cases hfresh : p.freshAnswer raw with
      | error e => exact nomatch hfresh ▸ hraw
      | ok known =>
        rw [parse_cache_of_unknown hfind hfresh] at hentries hkeys ⊢
        refine ⟨(raw, known) :: gained, ?_, ?_, List.forall_mem_cons.2 ⟨hfresh, hgained⟩⟩
        · rw [hentries, Ledger.entries_insert_of_not_mem hmem, List.append_assoc,
            List.singleton_append]
        · rw [List.map_cons, hkeys, Ledger.newKeys_cons_of_not_mem hmem known]

namespace Gains

variable {tokens : List Text} {cache' : Cache}

/-- The tokens of a cache that has gained some: those it had, and behind them the new ones. -/
theorem keys (h : p.Gains cache tokens cache') :
    cache'.keys = cache.keys ++ cache.newKeys tokens := by
  obtain ⟨gained, hentries, hkeys, -⟩ := h
  rw [Ledger.keys, hentries, List.map_append, hkeys]
  rfl

/-- No key is gained but the tokens, each unless it was held already. -/
theorem mem_keys_iff (h : p.Gains cache tokens cache') :
    raw ∈ cache'.keys ↔ raw ∈ cache.keys ∨ raw ∈ tokens := by
  rw [h.keys, List.mem_append, Ledger.mem_newKeys_iff]
  by_cases hmem : raw ∈ cache.keys <;> simp [hmem]

/-- What was held before is held on. -/
theorem find?_of_known (h : p.Gains cache tokens cache') {known : Option Candidate}
    (hfind : cache.find? raw = some known) : cache'.find? raw = some known := by
  obtain ⟨gained, hentries, -, -⟩ := h
  exact Ledger.find?_of_entries_append hentries hfind

/-- Nothing changes for a token that was not read. -/
theorem find?_of_not_mem (h : p.Gains cache tokens cache') (hraw : raw ∉ tokens) :
    cache'.find? raw = cache.find? raw := by
  cases hfind : cache.find? raw with
  | some known => exact h.find?_of_known hfind
  | none =>
    rw [Ledger.find?_eq_none_iff] at hfind ⊢
    exact fun hmem => (h.mem_keys_iff.1 hmem).elim hfind hraw

end Gains

/-! ## Reading several tokens -/

/-- Every result is in the cache. -/
def Backed (results cache : Cache) : Prop :=
  ∀ raw known, results.find? raw = some known → cache.find? raw = some known

/-- A result that is added for a token that was read is in the cache too. -/
theorem Backed.parse {results : Cache} {known : Option Candidate} (h : Backed results cache)
    (hraw : p.answerThrough cache raw = .ok known) :
    Backed (results.insert raw known) (p.parse cache raw).2 := by
  intro raw' known' hfind
  rw [Ledger.find?_insert] at hfind
  rw [find?_parse hraw]
  -- the token that was read has its answer in both, and another one stands where it stood
  split at hfind
  · next heq => rw [if_pos heq, hfind]
  · next hne => rw [if_neg hne, h raw' known' hfind]

/-- The answers to several tokens are those that the cache has at the start, and the tokens that are
    read are those before the first failure. -/
theorem parseAfter_eq {results : Cache} (hresults : Backed results cache) (tokens : List Text) :
    (p.parseAfter results cache tokens).1.answer =
        enterAnswers (p.answerThrough cache) results tokens ∧
      (p.parseAfter results cache tokens).2 =
        p.cacheAfter cache (tokens.takeWhile fun raw => (p.answerThrough cache raw).isOk) := by
  -- token by token; results and cache grow together, and results stay backed by the cache
  induction tokens generalizing results cache with
  | nil => exact ⟨rfl, rfl⟩
  | cons raw more ih =>
    rw [parseAfter]
    by_cases hknown : results.contains raw = true
    · -- a token with a result is passed over; reading it again would change nothing
      obtain ⟨known, hfind⟩ := Option.isSome_iff_exists.1 hknown
      have hmem : raw ∈ cache.keys :=
        (Ledger.mem_keys_iff_exists _ _).2 ⟨known, hresults raw known hfind⟩
      have hraw := answerThrough_of_known (p := p) (hresults raw known hfind)
      rw [if_pos hknown, enterAnswers_cons_of_ok hraw, Ledger.insert_eq_self hfind,
        List.takeWhile_cons_of_pos (by rw [hraw]; rfl), cacheAfter_cons, parse_cache_of_known hmem]
      exact ih hresults
    · rw [if_neg hknown]
      dsimp only
      rw [parse_answer]
      cases hraw : p.answerThrough cache raw with
      -- a failure ends the reading, and the token that failed is not among those read
      | error e =>
        rw [enterAnswers_cons_of_error hraw,
          List.takeWhile_cons_of_neg (by rw [hraw]; exact Bool.false_ne_true)]
        exact ⟨rfl, parse_cache_of_error hraw⟩
      | ok known =>
        rw [enterAnswers_cons_of_ok hraw, List.takeWhile_cons_of_pos (by rw [hraw]; rfl),
          cacheAfter_cons]
        -- the other tokens are read through the cache that the first leaves, with the same answers
        have hmore := ih (hresults.parse hraw)
        rw [answerThrough_parse] at hmore
        exact hmore

/-- Without results there is nothing to back. -/
theorem Backed.empty (cache : Cache) : Backed .empty cache := fun _ _ hfind => nomatch hfind

/-- Several tokens have the answers that the cache gives them at the start. -/
theorem parseMany_answer (p : Parser ε) (cache : Cache) (tokens : List Text) :
    (p.parseMany cache tokens).1.answer = enterAnswers (p.answerThrough cache) .empty tokens :=
  (parseAfter_eq (.empty cache) tokens).1

/-- The cache behind several tokens is the one behind those before the first failure. -/
theorem parseMany_cache (p : Parser ε) (cache : Cache) (tokens : List Text) :
    (p.parseMany cache tokens).2 =
      p.cacheAfter cache (tokens.takeWhile fun raw => (p.answerThrough cache raw).isOk) :=
  (parseAfter_eq (.empty cache) tokens).2

/-- One token is read like several. -/
theorem parseMany_cache_singleton (p : Parser ε) (cache : Cache) (raw : Text) :
    (p.parseMany cache [raw]).2 = (p.parse cache raw).2 := by
  have hfresh : ¬ (Ledger.empty : Cache).contains raw = true := by simp [Ledger.contains]
  rw [parseMany, parseAfter, if_neg hfresh]
  dsimp only
  split <;> rfl

/-- Tokens that all have an answer are read to the last one. -/
theorem parseMany_cache_of_isOk {tokens : List Text}
    (h : ∀ raw ∈ tokens, (p.answerThrough cache raw).isOk = true) :
    (p.parseMany cache tokens).2 = p.cacheAfter cache tokens := by
  rw [parseMany_cache, List.takeWhile_eq_self_iff.2 h]

/-- The tokens before the first failure are read. -/
theorem parseMany_cache_of_error {before rest : List Text} {t : Text} {e : ε}
    (hbefore : ∀ raw ∈ before, (p.answerThrough cache raw).isOk = true)
    (ht : p.answerThrough cache t = .error e) :
    (p.parseMany cache (before ++ t :: rest)).2 = p.cacheAfter cache before := by
  rw [parseMany_cache, List.takeWhile_append_of_pos hbefore,
    List.takeWhile_cons_of_neg (by rw [ht]; nofun), List.append_nil]

/-- If every token is known to the cache or has an answer of the parser's own, then each distinct
    token has its answer among the results, in the order in which the tokens first occur, and is in
    the cache.  Otherwise the first token that is not known and fails is the failure of all: the
    cache gains the tokens before it and nothing else, and the same request fails in the same way
    again. -/
theorem parseMany_stops_at_failure (p : Parser ε) (cache : Cache) (tokens : List Text) :
    ((∀ raw ∈ tokens, (p.answerThrough cache raw).isOk = true) →
      p.Gains cache tokens (p.parseMany cache tokens).2 ∧
      ∃ results, (p.parseMany cache tokens).1.answer = .ok results ∧
        results.keys = tokens.eraseDups ∧
        ∀ raw ∈ tokens, ∃ known, p.answerThrough cache raw = .ok known ∧
          results.find? raw = some known ∧ (p.parseMany cache tokens).2.find? raw = some known) ∧
    (∀ before t rest e, tokens = before ++ t :: rest →
      (∀ raw ∈ before, (p.answerThrough cache raw).isOk = true) →
      cache.find? t = none → p.freshAnswer t = .error e →
      (p.parseMany cache tokens).1.answer = .error e ∧
      p.Gains cache before (p.parseMany cache tokens).2 ∧
      (p.parseMany cache tokens).2.find? t = none ∧
      (∀ raw ∉ before, (p.parseMany cache tokens).2.find? raw = cache.find? raw) ∧
      (∀ raw known, cache.find? raw = some known →
        (p.parseMany cache tokens).2.find? raw = some known) ∧
      (p.parseMany (p.parseMany cache tokens).2 tokens).1.answer = .error e ∧
      (p.parseMany (p.parseMany cache tokens).2 tokens).2 = (p.parseMany cache tokens).2) := by
  refine ⟨?_, ?_⟩
  · intro htokens
    rw [parseMany_cache_of_isOk htokens, parseMany_answer]
    have hgains := gains_cacheAfter htokens
    obtain ⟨results, hresults, hanswered, hkeys⟩ :=
      -- the answers are entered one by one, beginning with no results
      enterAnswers_of_isOk htokens (.empty (p.answerThrough cache))
    rw [Ledger.newKeys_empty, Ledger.keys_empty, List.nil_append] at hkeys
    refine ⟨hgains, results, hresults, hkeys, ?_⟩
    intro raw hraw
    have hresult : raw ∈ results.keys := by rwa [hkeys, List.mem_eraseDups]
    obtain ⟨known, hknown⟩ := (Ledger.mem_keys_iff_exists _ _).1 hresult
    have hanswer := hanswered raw known hknown
    have hmem : raw ∈ (p.cacheAfter cache tokens).keys := hgains.mem_keys_iff.2 (.inr hraw)
    exact ⟨known, hanswer, hknown, find?_cacheAfter hmem hanswer⟩
  · intro before t rest e hsplit hbefore hfind hfresh
    subst hsplit
    have ht : p.answerThrough cache t = .error e := by rw [answerThrough_of_unknown hfind, hfresh]
    have hgains := gains_cacheAfter hbefore
    -- it fails, and all before it have an answer
    have hnotmem : t ∉ before := by
      intro hmem
      have hok := hbefore t hmem
      rw [ht] at hok
      exact nomatch hok
    have hagain : p.answerThrough (p.cacheAfter cache before) = p.answerThrough cache :=
      answerThrough_cacheAfter p cache before
    -- what was read changes no answer, so a second request meets the same failure
    rw [parseMany_cache_of_error hbefore ht, parseMany_answer, parseMany_answer, hagain]
    refine ⟨enterAnswers_of_error hbefore ht _, hgains, ?_, fun raw => hgains.find?_of_not_mem,
      fun raw known => hgains.find?_of_known, enterAnswers_of_error hbefore ht _, ?_⟩
    · rw [hgains.find?_of_not_mem hnotmem, hfind]
    · -- the tokens before the failure are known by now
      rw [← hagain] at hbefore ht
      rw [parseMany_cache_of_error hbefore ht]
      exact cacheAfter_of_known fun raw hraw => hgains.mem_keys_iff.2 (.inr hraw)

/-- An accepted token, a known rejection and a token that is given twice stand before one that
    fails: the cache gains the first and the third, and neither the failing token nor the one behind
    it. -/
theorem parseMany_stops_at_failure_unclosed :
    ∃ (p : Parser Value.Fault) (cache : Cache) (before : List Text),
      p = ⟨.default, .standard⟩ ∧ cache.find? "b" = some none ∧
      before = (["a", "b", "a-[;]", "a"] : List Text) ∧
      (∀ raw ∈ before, (p.answerThrough cache raw).isOk = true) ∧
      cache.find? "a-['url(']" = none ∧ p.freshAnswer "a-['url(']" = .error .unclosedAddress ∧
      (p.parseMany cache (before ++ ("a-['url(']" : Text) :: ["c"])).1.answer =
        .error .unclosedAddress ∧
      (p.parseMany cache (before ++ ("a-['url(']" : Text) :: ["c"])).2.keys =
        (["b", "a", "a-[;]"] : List Text) ∧
      ∃ results, (p.parseMany cache before).1.answer = .ok results ∧
        results.keys = (["a", "b", "a-[;]"] : List Text) := by
  let p : Parser Value.Fault := ⟨.default, .standard⟩
  let cache : Cache := Ledger.insert .empty "b" none
  let before : List Text := ["a", "b", "a-[;]", "a"]
  have hbefore : ∀ raw ∈ before, (p.answerThrough cache raw).isOk = true := by decide +kernel
  have hfind : cache.find? "a-['url(']" = none := by decide +kernel
  have hfresh : p.freshAnswer "a-['url(']" = .error .unclosedAddress := by decide +kernel
  obtain ⟨hanswer, hgains, -⟩ :=
    (parseMany_stops_at_failure p cache (before ++ ("a-['url(']" : Text) :: ["c"])).2
      before "a-['url(']" ["c"] _ rfl hbefore hfind hfresh
  obtain ⟨-, results, hresults, hkeys, -⟩ := (parseMany_stops_at_failure p cache before).1 hbefore
  refine ⟨p, cache, before, rfl, rfl, rfl, hbefore, hfind, hfresh, hanswer, ?_, results, hresults,
    ?_⟩
  · rw [hgains.keys]
    decide +kernel
  · rw [hkeys]
    decide +kernel

end Parser

end UtilityClass
