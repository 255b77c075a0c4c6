import UtilityClass.Proofs.Config
import UtilityClass.Proofs.Session.Batch
import UtilityClass.Proofs.Session.Memo

/-!
# Shared parsers

The cache of a shared parser tells tokens apart and nothing else, so that it answers for one
configuration is due to the table, which finds it by the whole configuration.  The table is in step
with what has been asked since the shared parsers were last dropped: it has one cache for each
configuration, and this cache is left by reading the tokens that were asked for under that
configuration, one after the other.

## Key results

- `SharedInStep.step`: one step keeps the table in step with what has been asked
- `sharedInStep_after`: so does a whole run
- `run_shared_answers`: a shared parser answers as if nothing had been asked before
-/

namespace UtilityClass

variable {ε : Type}

/-! ## Requests -/

/-- A token that a shared parser is asked for. -/
structure SharedRequest where
  settings : Settings
  raw : Text

namespace SharedRequest

/-- What has been asked of shared parsers since they were last dropped, once a step is taken. -/
def record (requests : List SharedRequest) : Step ε → List SharedRequest
  | .parseShared settings raw => requests ++ [⟨settings, raw⟩]
  | .resetShared => []
  | _ => requests

/-- What steps ask of shared parsers after these were last dropped. -/
def ofSteps (steps : List (Step ε)) : List SharedRequest := steps.foldl record []

/-- The tokens that are asked for under the settings. -/
def tokensUnder (settings : Settings) (requests : List SharedRequest) : List Text :=
  (requests.filter (·.settings = settings)).map (·.raw)

/-- The configurations that are asked for.  Settings that give none are passed over. -/
def configs (requests : List SharedRequest) : List Config :=
  requests.filterMap fun r => (Config.ofSettings r.settings).toOption

/-- One more token is asked for under its settings. -/
theorem tokensUnder_append_of_eq (settings : Settings) (requests : List SharedRequest)
    (raw : Text) :
    tokensUnder settings (requests ++ [⟨settings, raw⟩]) =
      tokensUnder settings requests ++ [raw] := by
  simp [tokensUnder]

/-- What is asked for under other settings does not count. -/
theorem tokensUnder_append_of_ne {settings settings' : Settings} (h : settings' ≠ settings)
    (requests : List SharedRequest) (raw : Text) :
    tokensUnder settings (requests ++ [⟨settings', raw⟩]) = tokensUnder settings requests := by
  simp [tokensUnder, h]

/-- One more request asks for one more configuration, if its settings give one. -/
theorem configs_append (requests : List SharedRequest) (settings : Settings) (raw : Text) :
    configs (requests ++ [⟨settings, raw⟩]) =
      configs requests ++ (Config.ofSettings settings).toOption.toList := by
  rw [configs, List.filterMap_append]
  cases h : Config.ofSettings settings <;> simp [configs, h, Except.toOption]

end SharedRequest

namespace Session

open SharedRequest

/-! ## The table -/

/-- Writing one cache of the table changes it alone. -/
theorem sharedCache_of_insert {s s' : Session ε} {config : Config} {cache : Cache}
    (hshared : s'.shared = s.shared.insert config cache) (config' : Config) :
    s'.sharedCache config' = if config' = config then cache else s.sharedCache config' := by
  unfold sharedCache
  rw [hshared, Ledger.find?_insert]
  split <;> rfl

/-- The table of shared parsers is in step with requests: it has a cache for each configuration, in
    the order in which they were first asked for, and this is the cache that the tokens leave which
    were asked for under that configuration. -/
structure SharedInStep (defaults : Collaborators ε) (requests : List SharedRequest)
    (s : Session ε) : Prop where
  keys : s.shared.keys = (configs requests).eraseDups
  cache : ∀ settings config, Config.ofSettings settings = .ok config →
    s.sharedCache config =
      Parser.cacheAfter ⟨config, defaults⟩ .empty (tokensUnder settings requests)

variable {defaults : Collaborators ε} {requests : List SharedRequest} {s s' : Session ε}

/-- A new session has been asked for nothing. -/
theorem sharedInStep_empty (defaults : Collaborators ε) :
    SharedInStep defaults [] (empty : Session ε) :=
  ⟨by simp [empty, configs], fun _ _ _ => rfl⟩

namespace SharedInStep

/-- Steps that leave the table alone keep it in step. -/
theorem of_shared_eq (h : SharedInStep defaults requests s) (hshared : s'.shared = s.shared) :
    SharedInStep defaults requests s' := by
  obtain ⟨hkeys, hcache⟩ := h
  refine ⟨by rw [hshared, hkeys], ?_⟩
  intro settings config hconfig
  rw [sharedCache, hshared]
  exact hcache settings config hconfig

/-- Settings that give no configuration change nothing. -/
theorem parseShared_of_error (h : SharedInStep defaults requests s) {settings : Settings}
    {e : Config.Error} (herror : Config.ofSettings settings = .error e) (raw : Text) :
    SharedInStep defaults (requests ++ [⟨settings, raw⟩])
      (parseShared defaults s settings raw).2 := by
  rw [parseShared, herror]
  refine ⟨?_, ?_⟩
  -- settings without a configuration count neither among the configurations nor among the tokens
  · rw [configs_append, herror, h.keys]
    simp [Except.toOption]
  -- no settings with a configuration are these
  · intro settings' config hconfig
    have hne : settings ≠ settings' := by
      rintro rfl
      cases hconfig.symm.trans herror
    rw [tokensUnder_append_of_ne hne]
    exact h.cache settings' config hconfig

/-- A token is read through the cache of its configuration, and the other caches stay. -/
theorem parseShared_of_ok (h : SharedInStep defaults requests s) {settings : Settings}
    {config : Config} (hok : Config.ofSettings settings = .ok config) (raw : Text) :
    SharedInStep defaults (requests ++ [⟨settings, raw⟩])
      (parseShared defaults s settings raw).2 := by
  rw [parseShared, hok]
  refine ⟨?_, ?_⟩
  · -- a failure too leaves the configuration in the table: at the end, if it is new there
    rw [configs_append, hok, Ledger.keys_insert, h.keys, List.eraseDups_append]
    by_cases hmem : config ∈ configs requests <;>
      simp [Except.toOption, List.removeAll, List.eraseDups_cons, hmem]
  · intro settings' config' hconfig
    rw [sharedCache_of_insert rfl]
    split
    · next heq =>
      subst heq
      -- the configuration tells the settings, so the token counts among those asked for under them
      obtain rfl := Config.ofSettings_inj hok hconfig
      rw [tokensUnder_append_of_eq, Parser.cacheAfter_append, ← h.cache settings config' hok]
      rfl
    · next hne =>
      have hsettings : settings ≠ settings' := by
        rintro rfl
        exact hne (Except.ok.inj (hconfig.symm.trans hok))
      rw [tokensUnder_append_of_ne hsettings]
      exact h.cache settings' config' hconfig

/-- One step keeps the table in step with what has been asked. -/
theorem step (h : SharedInStep defaults requests s) (st : Step ε) :
    SharedInStep defaults (record requests st) (Session.step defaults s st).2 := by
  cases st with
  | parseShared settings raw =>
    cases hconfig : Config.ofSettings settings with
    | error e => exact h.parseShared_of_error hconfig raw
    | ok config => exact h.parseShared_of_ok hconfig raw
  | resetShared => exact ⟨by simp [Session.step, record, configs], fun _ _ _ => rfl⟩
  -- the other steps do not touch the table
  | make settings cache k =>
    refine h.of_shared_eq ?_
    rw [Session.step, Session.make]
    split <;> rfl
  | parse n raw | parseMany n tokens =>
    refine h.of_shared_eq ?_
    rw [Session.step, withParser]
    split <;> rfl
  | get ref raw | lookup ref raw fallback =>
    refine h.of_shared_eq ?_
    rw [Session.step]
    split <;> rfl
  | clear ref | put ref raw result | store ref raw source | contains ref raw | size ref
  | keys ref =>
    exact h.of_shared_eq rfl

/-- A run keeps the table in step with what has been asked. -/
theorem after (h : SharedInStep defaults requests s) (steps : List (Step ε)) :
    SharedInStep defaults (steps.foldl record requests) (Session.after defaults s steps) := by
  -- on the steps left: the requests grow by what each step asks
  induction steps generalizing requests s with
  | nil => exact h
  | cons first more ih => exact ih (h.step first)

end SharedInStep

/-- A run from the start keeps the table in step with what has been asked. -/
theorem sharedInStep_after (defaults : Collaborators ε) (steps : List (Step ε)) :
    SharedInStep defaults (ofSteps steps) (Session.after defaults empty steps) :=
  (sharedInStep_empty defaults).after steps

/-! ## Answers -/

/-- A table that is in step changes no answer. -/
theorem SharedInStep.answerThrough (h : SharedInStep defaults requests s) {settings : Settings}
    {config : Config} (hconfig : Config.ofSettings settings = .ok config) :
    Parser.answerThrough ⟨config, defaults⟩ (s.sharedCache config) =
      Parser.freshAnswer ⟨config, defaults⟩ := by
  -- the tokens were read through an empty cache, and that changes no answer
  rw [h.cache settings config hconfig, Parser.answerThrough_cacheAfter]
  rfl

/-- After any steps a shared parser answers, with a failure too, as if nothing had been asked
    before; without settings it is the default configuration that counts.  Its cache is left by the
    tokens that were asked for under its own settings since the shared parsers were last dropped,
    whatever was asked under others, and holds no answer but its own.  The table has each
    configuration that was asked for once. -/
theorem run_shared_answers (defaults : Collaborators ε) (before rest : List (Step ε)) :
    (∀ settings config, Config.ofSettings settings = .ok config →
      (∀ raw, answerTo? defaults before (.parseShared settings raw) rest =
        some (asReply .candidate (Candidate.parse defaults config raw).answer)) ∧
      (after defaults empty before).sharedCache config =
        Parser.cacheAfter ⟨config, defaults⟩ .empty (tokensUnder settings (ofSteps before)) ∧
      (∀ raw known, ((after defaults empty before).sharedCache config).find? raw = some known →
        (Candidate.parse defaults config raw).answer = .ok known) ∧
      ∀ settings', Config.ofSettings settings' = .ok config → settings' = settings) ∧
    (∀ raw, answerTo? defaults before (.parseShared {} raw) rest =
      some (asReply .candidate (Candidate.parse defaults .default raw).answer)) ∧
    (after defaults empty before).shared.keys = (configs (ofSteps before)).eraseDups ∧
    (after defaults empty before).shared.keys.Nodup := by
  have hstep := sharedInStep_after defaults before
  -- the table is in step, so the cache under the configuration holds the parser's own answers
  have hanswer : ∀ settings config, Config.ofSettings settings = .ok config → ∀ raw,
      answerTo? defaults before (.parseShared settings raw) rest =
        some (asReply .candidate (Candidate.parse defaults config raw).answer) := by
    intro settings config hconfig raw
    -- the parser is asked in the session that the steps before have left
    have hraw := congrFun (hstep.answerThrough hconfig) raw
    rw [← Parser.parse_answer] at hraw
    rw [answerTo?_eq, Session.step, parseShared, hconfig]
    exact congrArg (some ∘ asReply .candidate) hraw
  refine ⟨?_, hanswer {} .default rfl, hstep.keys, Ledger.nodup_keys _⟩
  intro settings config hconfig
  refine ⟨hanswer settings config hconfig, hstep.cache settings config hconfig, ?_,
    fun settings' hconfig' => Config.ofSettings_inj hconfig' hconfig⟩
  -- what is held would be the answer now, and that is the parser's own
  intro raw known hfind
  have hknown := congrFun (hstep.answerThrough hconfig) raw
  rw [Parser.answerThrough_of_known hfind] at hknown
  exact hknown.symm

/-- Since the shared parsers were dropped, two of them are asked for the same token.  One fails on
    it, the other rejects it for want of a prefix, and each keeps to its own answer. -/
theorem run_shared_answers_prefixed :
    ∃ (before : List (Step Value.Fault)) (plain prefixed : Config),
      before = [.parseShared {} "b", .resetShared, .parseShared {} "a",
        .parseShared ⟨":", "tw-", true⟩ "a-['url(']", .parseShared {} "a-['url(']"] ∧
      Config.ofSettings {} = .ok plain ∧
      Config.ofSettings ⟨":", "tw-", true⟩ = .ok prefixed ∧
      answerTo? .standard before (.parseShared {} "a-['url(']") [] =
        some (.error (.fault .unclosedAddress)) ∧
      answerTo? .standard before (.parseShared ⟨":", "tw-", true⟩ "a-['url(']") [] =
        some (.ok (.candidate none)) ∧
      ((after .standard empty before).sharedCache plain).keys = (["a"] : List Text) ∧
      ((after .standard empty before).sharedCache prefixed).keys = (["a-['url(']"] : List Text) ∧
      (after .standard empty before).shared.keys = [plain, prefixed] := by
  let before : List (Step Value.Fault) :=
    [.parseShared {} "b", .resetShared, .parseShared {} "a",
      .parseShared ⟨":", "tw-", true⟩ "a-['url(']", .parseShared {} "a-['url(']"]
  let prefixed : Config := ⟨":", "tw-", true, by decide, by decide, by decide⟩
  have hprefixed : Config.ofSettings ⟨":", "tw-", true⟩ = .ok prefixed := rfl
  have hfails : (Candidate.parse .standard .default "a-['url(']").answer =
      .error .unclosedAddress := by decide +kernel
  have hrejects : (Candidate.parse .standard prefixed "a-['url(']").answer = .ok none := by
    decide +kernel
  obtain ⟨hconfigs, hdefault, hkeys, -⟩ := run_shared_answers .standard before []
  obtain ⟨hasked, hcache, -⟩ := hconfigs _ prefixed hprefixed
  have hplain := hdefault "a-['url(']"
  have hother := hasked "a-['url(']"
  rw [hfails] at hplain
  rw [hrejects] at hother
  refine ⟨before, .default, prefixed, rfl, rfl, hprefixed, hplain, hother, ?_, ?_, ?_⟩
  · rw [(hconfigs {} .default rfl).2.1]
    decide +kernel
  · rw [hcache]
    decide +kernel
  · rw [hkeys]
    decide +kernel

end Session

end UtilityClass
