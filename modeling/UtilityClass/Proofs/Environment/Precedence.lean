import UtilityClass.Environment.Load
import UtilityClass.Proofs.Config
import UtilityClass.Proofs.Ledger
import UtilityClass.Proofs.Text.Lines

/-!
# Where settings come from

An environment file adds variables to an environment and changes none of them.  So each setting is
taken from the argument if one is given, else from the environment as it was, else from the file,
else it has its default; and it is so whatever the other settings are taken from.  A variable that
cannot be set ends the loading: the variables before it are set, and no other.

An empty name for the environment file is no name.

## Key results

- `EnvFile.select_eq_ok`: which file is selected
- `Environment.define_of_settable` / `Environment.define_of_hasNul`: what loading adds
- `Environment.load_layers`: the environment after loading, and the settings that are taken from it
-/

namespace UtilityClass

namespace EnvFile

/-! ## The file -/

/-- The file that an environment is loaded from, if there is one: the file that is named, and no
    other; or, if none is named, the nearest one outwards.  An empty name names none. -/
def chosen? (tree : FileTree) (here : Path) (named : Option Text) : Option ByteArray :=
  match named with
  | some (c :: rest) =>
    if '\x00' ∈ Path.tidy (c :: rest) then none else tree.fileAt? here (Path.tidy (c :: rest))
  | _ => (find? tree here).bind tree.file?

/-- The assignments of the file that an environment is loaded from; none if there is no such file or
    it is not text. -/
def assigned (tree : FileTree) (here : Path) (named : Option Text) : Environment :=
  ((chosen? tree here named).bind Text.ofBytes?).elim .empty read

/-- Nothing stands in the way of loading a file: no path is too long to be looked up, and the file,
    if there is one, is text. -/
structure Loadable (tree : FileTree) (here : Path) (named : Option Text) : Prop where
  lookup : (select tree here named).isOk = true
  decodes : ∀ bytes, chosen? tree here named = some bytes → (Text.ofBytes? bytes).isSome = true

variable {tree : FileTree} {here : Path} {named : Option Text}

/-- The working directory is a place without a NUL character in its text, so a search from there
    fails over its length or finds what is nearest. -/
theorem search_hereText (tree : FileTree) (here : Path) :
    search tree here hereText = .error (.longPath (here ++ [fileName]).text) ∨
      search tree here hereText = .ok (find? tree here) := by
  have hplace : Path.resolve here hereText = here := rfl
  have hnul : '\x00' ∉ hereText := by decide
  rw [search, if_neg hnul, hplace]
  dsimp only
  split
  · exact .inl rfl
  · exact .inr rfl

/-- The file that is selected is the one to load from. -/
theorem select_eq_ok {found : Option (Text × ByteArray)} (h : select tree here named = .ok found) :
    found.map Prod.snd = chosen? tree here named := by
  -- without a name it is the search from the working directory that finds a file
  have hnearest (h : (search tree here hereText).map (fun found => found.bind fun p =>
      (tree.file? p).map fun bytes => (p.text, bytes)) = .ok found) :
      found.map Prod.snd = (find? tree here).bind tree.file? := by
    obtain hsearch | hsearch := search_hereText tree here
    · rw [hsearch] at h
      exact nomatch h
    · rw [hsearch] at h
      rw [← Except.ok.inj h, Option.map_bind]
      congr 1
      funext p
      exact (Option.map_map _ _ _).trans Option.map_id'
  match named with
  | none | some [] => exact hnearest h
  | some (c :: rest) =>
    dsimp only [select] at h
    dsimp only [chosen?]
    split at h
    · next hnul => rw [if_pos hnul, ← Except.ok.inj h]; rfl
    · next hnul =>
      split at h
      · exact nomatch h
      · rw [if_neg hnul, ← Except.ok.inj h, Option.map_map]
        exact Option.map_id'

/-- Looking for a file fails only over a path that is too long. -/
theorem select_eq_error {e : Environment.Fault} (h : select tree here named = .error e) :
    e ≠ .nulCharacter := by
  -- a named file may have too long a path, and without a name the search may have one
  unfold select at h
  split at h
  · dsimp only at h
    split at h
    · exact nomatch h
    · split at h
      · rw [← Except.error.inj h]
        nofun
      · exact nomatch h
  · obtain hsearch | hsearch := search_hereText tree here
    · rw [hsearch] at h
      rw [← Except.error.inj h]
      nofun
    · rw [hsearch] at h
      exact nomatch h

end EnvFile

namespace Environment

/-! ## Assignments -/

/-- An assignment that cannot be carried out, since it holds a NUL character. -/
def HasNul (assignment : Text × Text) : Prop := '\x00' ∈ assignment.1 ∨ '\x00' ∈ assignment.2

instance (assignment : Text × Text) : Decidable (HasNul assignment) :=
  inferInstanceAs (Decidable (_ ∨ _))

/-- The assignments to variables that an environment does not hold. -/
def unset (env : Environment) (assignments : List (Text × Text)) : List (Text × Text) :=
  assignments.filter fun a => a.1 ∉ env.keys

variable {env : Environment} {a : Text × Text} {before after assignments : List (Text × Text)}

/-- A variable that is held is not set again. -/
theorem define_cons_of_mem (h : a.1 ∈ env.keys) : env.define (a :: after) = env.define after := by
  rw [define, if_pos ((Ledger.contains_iff _ _).2 h)]

/-- A variable that cannot be set ends the loading. -/
theorem define_cons_of_hasNul (h : a.1 ∉ env.keys) (hnul : HasNul a) :
    env.define (a :: after) = (env, some .nulCharacter) := by
  rw [define, if_neg (by rwa [Ledger.contains_iff])]
  exact if_pos hnul

/-- A variable that can be set is set, and the others after it. -/
theorem define_cons_of_settable (h : a.1 ∉ env.keys) (hnul : ¬ HasNul a) :
    env.define (a :: after) = define (env.insert a.1 a.2) after := by
  rw [define, if_neg (by rwa [Ledger.contains_iff])]
  exact if_neg hnul

/-- Variables that can all be set come behind the others, which stay as they are. -/
theorem define_of_settable (hkeys : (assignments.map Prod.fst).Nodup)
    (h : ∀ a ∈ env.unset assignments, ¬ HasNul a) :
    ∃ env', env.define assignments = (env', none) ∧
      env'.entries = env.entries ++ env.unset assignments := by
  -- assignment by assignment; the environment grows by those that are unset
  induction assignments generalizing env with
  | nil => exact ⟨env, rfl, (List.append_nil _).symm⟩
  | cons a more ih =>
    obtain ⟨ha, hmore⟩ := List.nodup_cons.1 hkeys
    by_cases hmem : a.1 ∈ env.keys
    · have hunset : env.unset (a :: more) = env.unset more :=
        List.filter_cons_of_neg (by simpa using hmem)
      rw [hunset] at h ⊢
      rw [define_cons_of_mem hmem]
      exact ih hmore h
    · have hunset : env.unset (a :: more) = a :: env.unset more :=
        List.filter_cons_of_pos (by simpa using hmem)
      -- the key comes only once in the file, so the others are as unset as before
      have hrest : unset (env.insert a.1 a.2) more = env.unset more := by
        apply List.filter_congr
        intro b hb
        have hne : b.1 ≠ a.1 := fun heq => ha (heq ▸ List.mem_map_of_mem hb)
        rw [Ledger.keys_insert, if_neg hmem]
        simp [hne]
      rw [hunset] at h ⊢
      obtain ⟨hsettable, hothers⟩ := List.forall_mem_cons.1 h
      obtain ⟨env', hdefine, hentries⟩ := ih hmore (by rwa [hrest])
      refine ⟨env', by rw [define_cons_of_settable hmem hsettable, hdefine], ?_⟩
      rw [hentries, hrest, Ledger.entries_insert_of_not_mem hmem, List.append_assoc,
        List.singleton_append]

/-- Once variables are set, the others are set after them. -/
theorem define_append {env' : Environment} (h : env.define before = (env', none)) :
    env.define (before ++ after) = env'.define after := by
  -- assignment by assignment, none of which has ended the loading
  induction before generalizing env with
  | nil => rw [← (Prod.mk.inj h).1]; rfl
  | cons a more ih =>
    by_cases hmem : a.1 ∈ env.keys
    · rw [define_cons_of_mem hmem] at h
      rw [List.cons_append, define_cons_of_mem hmem, ih h]
    · by_cases hnul : HasNul a
      · rw [define_cons_of_hasNul hmem hnul] at h
        exact nomatch h
      · rw [define_cons_of_settable hmem hnul] at h
        rw [List.cons_append, define_cons_of_settable hmem hnul, ih h]

/-- The first variable that cannot be set ends the loading; those before it are set. -/
theorem define_of_hasNul (hkeys : ((before ++ a :: after).map Prod.fst).Nodup)
    (hbefore : ∀ b ∈ env.unset before, ¬ HasNul b) (ha : a.1 ∉ env.keys) (hnul : HasNul a) :
    ∃ env', env.define (before ++ a :: after) = (env', some .nulCharacter) ∧
      env'.entries = env.entries ++ env.unset before := by
  rw [List.map_append] at hkeys
  -- the keys come once in the file, so none of the variables before is the one that cannot be set
  obtain ⟨hfirst, -, hdisjoint⟩ := List.nodup_append.1 hkeys
  obtain ⟨env', hdefine, hentries⟩ := define_of_settable hfirst hbefore
  -- it is held neither before the loading nor by what is set before it
  have hunset : a.1 ∉ env'.keys := by
    rw [Ledger.keys, hentries, List.map_append, List.mem_append, not_or]
    refine ⟨ha, ?_⟩
    intro hmem
    obtain ⟨b, hb, heq⟩ := List.mem_map.1 hmem
    have hmem : b.1 ∈ before.map Prod.fst := List.mem_map_of_mem (List.mem_filter.1 hb).1
    exact hdisjoint b.1 hmem a.1 (by simp) heq
  exact ⟨env', by rw [define_append hdefine, define_cons_of_hasNul hunset hnul], hentries⟩

/-- Where some variable cannot be set, there is a first one. -/
theorem exists_first_hasNul (h : ¬ ∀ b ∈ env.unset assignments, ¬ HasNul b) :
    ∃ before a after, assignments = before ++ a :: after ∧
      (∀ b ∈ env.unset before, ¬ HasNul b) ∧ a.1 ∉ env.keys ∧ HasNul a := by
  induction assignments with
  | nil => exact absurd (by simp [unset]) h
  | cons c more ih =>
    by_cases hc : c.1 ∉ env.keys ∧ HasNul c
    · exact ⟨[], c, more, rfl, by simp [unset], hc⟩
    · -- the first assignment is not the one, so it may stand in front of it
      have hcons : ∀ as : List (Text × Text), (∀ b ∈ env.unset as, ¬ HasNul b) →
          ∀ b ∈ env.unset (c :: as), ¬ HasNul b := by
        intro as has b hb hnul
        obtain ⟨hmem, hunset⟩ := List.mem_filter.1 hb
        rcases List.mem_cons.1 hmem with rfl | hmem
        · exact hc ⟨by simpa using hunset, hnul⟩
        · exact has b (List.mem_filter.2 ⟨hmem, hunset⟩) hnul
      obtain ⟨before, a, after, hsplit, hbefore, ha⟩ := ih fun hmore => h (hcons more hmore)
      exact ⟨c :: before, a, after, by rw [hsplit]; rfl, hcons before hbefore, ha⟩

/-! ## Loading -/

variable {tree : FileTree} {here : Path} {named : Option Text}

/-- A file that can be loaded is loaded by its assignments. -/
theorem load_of_loadable (env : Environment) (h : EnvFile.Loadable tree here named) :
    ∃ source, load env tree here named =
      ⟨source, (env.define (EnvFile.assigned tree here named).entries).1,
        (env.define (EnvFile.assigned tree here named).entries).2⟩ := by
  -- a file that could be selected is there or not, and its bytes can be decoded
  unfold load EnvFile.assigned
  cases hselect : EnvFile.select tree here named with
  | error e =>
    have hlookup := h.lookup
    rw [hselect] at hlookup
    exact nomatch hlookup
  | ok found =>
    rw [← EnvFile.select_eq_ok hselect]
    cases found with
    | none => exact ⟨none, rfl⟩
    | some file =>
      obtain ⟨t, ht⟩ := Option.isSome_iff_exists.1 (h.decodes file.2 (by
        rw [← EnvFile.select_eq_ok hselect]; rfl))
      exact ⟨some file.1, by simp [ht]⟩

/-- Any other file leaves the environment as it is. -/
theorem load_of_not_loadable (env : Environment) (h : ¬ EnvFile.Loadable tree here named) :
    (load env tree here named).environment = env ∧
      ∃ e, (load env tree here named).fault = some e ∧ e ≠ .nulCharacter := by
  -- no file is selected, or the one that is cannot be decoded
  unfold load
  cases hselect : EnvFile.select tree here named with
  | error e => exact ⟨rfl, e, rfl, EnvFile.select_eq_error hselect⟩
  | ok found =>
    have hchosen := EnvFile.select_eq_ok hselect
    cases found with
    | none => exact absurd ⟨by rw [hselect]; rfl, by rw [← hchosen]; nofun⟩ h
    | some file =>
      cases hbytes : Text.ofBytes? file.2 with
      | none => exact ⟨by simp [hbytes], .undecodable, by simp [hbytes], nofun⟩
      | some t =>
        refine absurd ⟨by rw [hselect]; rfl, ?_⟩ h
        intro bytes hsome
        obtain rfl : file.2 = bytes := by
          rw [← hchosen] at hsome
          exact Option.some.inj hsome
        rw [hbytes]
        rfl

end Environment

/-! ## Settings -/

namespace Settings

/-- Settings that are taken, each for itself, from the argument if one is given, else from the
    environment, else from the assignments of a file, else from the defaults. -/
def layered (given : GivenSettings) (env file : Environment) : Settings where
  separator :=
    (given.separator.or ((env.find? separatorVariable).or (file.find? separatorVariable))).getD ":"
  classPrefix :=
    (given.classPrefix.or ((env.find? prefixVariable).or (file.find? prefixVariable))).getD []
  stripPrefix :=
    (given.stripPrefix.or
      (((env.find? stripVariable).or (file.find? stripVariable)).map isYes)).getD false

/-- Settings from an environment that was loaded over another one are settings from both. -/
theorem resolve_eq_layered {env env' file : Environment}
    (h : ∀ name, env'.find? name = (env.find? name).or (file.find? name)) (given : GivenSettings) :
    resolve env' given = layered given env file := by
  have hyes : ∀ value : Option Text, value.any isYes = (value.map isYes).getD false := by
    intro value
    cases value <;> rfl
  simp only [resolve, layered, h, hyes, Option.getD_or]

end Settings

namespace Environment

variable {tree : FileTree} {here : Path} {named : Option Text}

/-- Loading succeeds exactly if the file can be loaded and no variable that is to be set holds a NUL
    character.  Then the environment has gained the assignments to variables that it did not hold,
    and nothing else; and each setting is taken from its argument, else from the environment as it
    was, else from the file, else from its default, unless what comes out cannot be used.  If a
    variable cannot be set, the environment has gained those before it, and if the file cannot be
    loaded, none. -/
theorem load_layers (env : Environment) (tree : FileTree) (here : Path) (named : Option Text) :
    let file := EnvFile.assigned tree here named
    let loaded := load env tree here named
    (loaded.fault = none ↔
      EnvFile.Loadable tree here named ∧ ∀ a ∈ env.unset file.entries, ¬ HasNul a) ∧
    (loaded.fault = none →
      loaded.environment.entries = env.entries ++ env.unset file.entries ∧
      ∀ given : GivenSettings,
        let settings := Settings.layered given env file
        (settings.Unusable →
          ∃ e, Config.ofSettings (Settings.resolve loaded.environment given) = .error e) ∧
        (¬ settings.Unusable →
          ∃ config, Config.ofSettings (Settings.resolve loaded.environment given) = .ok config ∧
            config.separator = settings.separator ∧ config.classPrefix = settings.classPrefix ∧
            config.stripPrefix = settings.stripPrefix)) ∧
    (loaded.fault = some .nulCharacter ↔
      EnvFile.Loadable tree here named ∧ ∃ a ∈ env.unset file.entries, HasNul a) ∧
    (loaded.fault = some .nulCharacter →
      ∃ before a after, file.entries = before ++ a :: after ∧
        (∀ b ∈ env.unset before, ¬ HasNul b) ∧ a.1 ∉ env.keys ∧ HasNul a ∧
        loaded.environment.entries = env.entries ++ env.unset before) ∧
    (¬ EnvFile.Loadable tree here named → loaded.environment = env) := by
  intro file loaded
  by_cases hload : EnvFile.Loadable tree here named
  · obtain ⟨source, hloaded⟩ : ∃ source, loaded =
        ⟨source, (env.define file.entries).1, (env.define file.entries).2⟩ :=
      load_of_loadable env hload
    -- the file can be loaded; what is left to ask is whether every unset variable can be set
    by_cases hsettable : ∀ a ∈ env.unset file.entries, ¬ HasNul a
    · obtain ⟨env', hdefine, hentries⟩ := define_of_settable file.nodup hsettable
      have heq : loaded = ⟨source, env', none⟩ := by rw [hloaded, hdefine]
      rw [heq]
      refine ⟨iff_of_true rfl ⟨hload, hsettable⟩, fun _ => ⟨hentries, ?_⟩, iff_of_false nofun ?_,
        nofun, fun h => absurd hload h⟩
      -- the environment has gained the assignments, so a setting is looked up in both
      · intro given settings
        have hfind : ∀ name, env'.find? name = (env.find? name).or (file.find? name) :=
          Ledger.find?_of_entries_append_filter (fun a => by simp) hentries
        rw [Settings.resolve_eq_layered hfind]
        exact ⟨Config.ofSettings_unusable, Config.ofSettings_usable⟩
      · rintro ⟨-, a, ha, hnul⟩
        exact hsettable a ha hnul
    -- the first variable that cannot be set cuts the assignments
    · obtain ⟨before, a, after, hsplit, hbefore, ha, hnul⟩ := exists_first_hasNul hsettable
      have hkeys := file.nodup
      rw [hsplit] at hkeys
      obtain ⟨env', hdefine, hentries⟩ := define_of_hasNul hkeys hbefore ha hnul
      have heq : loaded = ⟨source, env', some .nulCharacter⟩ := by rw [hloaded, hsplit, hdefine]
      rw [heq]
      refine ⟨iff_of_false nofun fun h => hsettable h.2, nofun, iff_of_true rfl ⟨hload, ?_⟩,
        fun _ => ⟨before, a, after, hsplit, hbefore, ha, hnul, hentries⟩, fun h => absurd hload h⟩
      simpa using hsettable
  -- nothing is loaded over a file that cannot be read or looked up
  · obtain ⟨henv, e, hfault, hne⟩ := load_of_not_loadable env hload
    have hnone : ¬ loaded.fault = none := fun h => nomatch h.symm.trans hfault
    have hnul : ¬ loaded.fault = some .nulCharacter :=
      fun h => hne (Option.some.inj (hfault.symm.trans h))
    exact ⟨iff_of_false hnone fun h => hload h.1, fun h => absurd h hnone,
      iff_of_false hnul fun h => hload h.1, fun h => absurd h hnul, fun _ => henv⟩

/-- A directory with an environment file in it. -/
def treeWith (content : String) : FileTree :=
  .ofList [([[], EnvFile.fileName], .file content.toUTF8), ([[]], .directory)]

/-- What is assigned in such a directory is what is read from its file. -/
theorem assigned_treeWith (content : String) :
    EnvFile.assigned (treeWith content) [[]] none =
      EnvFile.read (Text.unifyBreaks content.toList) := by
  have hchosen : EnvFile.chosen? (treeWith content) [[]] none = some content.toUTF8 := rfl
  rw [EnvFile.assigned, hchosen, Option.bind_some, Text.ofBytes?_toUTF8]
  rfl

/-- Nothing stands in the way of loading such a file. -/
theorem loadable_treeWith (content : String) : EnvFile.Loadable (treeWith content) [[]] none := by
  refine ⟨rfl, ?_⟩
  intro bytes hbytes
  obtain rfl : content.toUTF8 = bytes := Option.some.inj hbytes
  rw [Text.ofBytes?_toUTF8]
  rfl

/-- The prefix is set already, the separator is assigned twice, and a NUL character does no harm in
    a variable that is not to be set.  In one that is, it ends the loading behind what is set before
    it. -/
theorem load_layers_assigned_twice :
    let env : Environment := .ofList [("TW_PREFIX", "tw-")]
    let loaded := load env (treeWith
      "TW_PREFIX=\x00\nTW_SEPARATOR=_\nexport TW_SEPARATOR='__'\nTW_STRIP_PREFIX= Yes ") [[]] none
    let stopped := load env (treeWith "TW_PREFIX=\x00\nA=1\nB=\x00\nC=3") [[]] none
    loaded.fault = none ∧
    loaded.environment.entries = [("TW_PREFIX".toList, "tw-".toList),
      ("TW_SEPARATOR".toList, "__".toList), ("TW_STRIP_PREFIX".toList, "Yes".toList)] ∧
    (∃ config, Config.ofSettings (Settings.resolve loaded.environment {}) = .ok config ∧
      config.separator = "__".toList ∧ config.classPrefix = "tw-".toList ∧
      config.stripPrefix = true) ∧
    stopped.fault = some .nulCharacter := by
  intro env loaded stopped
  obtain ⟨hnone, hlayers, -⟩ := load_layers env (treeWith
    "TW_PREFIX=\x00\nTW_SEPARATOR=_\nexport TW_SEPARATOR='__'\nTW_STRIP_PREFIX= Yes ") [[]] none
  obtain ⟨-, -, hnul, -⟩ :=
    load_layers env (treeWith "TW_PREFIX=\x00\nA=1\nB=\x00\nC=3") [[]] none
  have hfile : EnvFile.read (Text.unifyBreaks
      "TW_PREFIX=\x00\nTW_SEPARATOR=_\nexport TW_SEPARATOR='__'\nTW_STRIP_PREFIX= Yes ".toList) =
      .ofList [("TW_PREFIX", ['\x00']), ("TW_SEPARATOR", "__"), ("TW_STRIP_PREFIX", "Yes")] :=
    Ledger.eq_of_entries_eq (by decide +kernel)
  rw [assigned_treeWith, hfile] at hnone hlayers
  rw [assigned_treeWith] at hnul
  have hfault : loaded.fault = none := hnone.2 ⟨loadable_treeWith _, by decide +kernel⟩
  have hstopped : stopped.fault = some .nulCharacter :=
    hnul.2 ⟨loadable_treeWith _, by decide +kernel⟩
  obtain ⟨hentries, hsettings⟩ := hlayers hfault
  obtain ⟨config, hconfig, hseparator, hclass, hstrip⟩ := (hsettings {}).2 (by decide +kernel)
  refine ⟨hfault, ?_, ⟨config, hconfig, ?_, ?_, ?_⟩, hstopped⟩
  · rw [hentries]
    decide +kernel
  · rw [hseparator]
    decide +kernel
  · rw [hclass]
    decide +kernel
  · rw [hstrip]
    decide +kernel

/-- A file that is named by the empty text is no file, and yet one is loaded: the nearest one
    outwards. -/
theorem load_empty_name :
    ∃ tree : FileTree, tree.fileAt? [[]] (Path.tidy []) = none ∧
      (load .empty tree [[]] (some [])).fault = none ∧
      (load .empty tree [[]] (some [])).environment.entries = [("A".toList, "1".toList)] := by
  -- nothing is looked at but the name, and that as if none were given
  have hloadable : EnvFile.Loadable (treeWith "A=1") [[]] (some []) :=
    ⟨rfl, (loadable_treeWith "A=1").decodes⟩
  have hassigned : EnvFile.assigned (treeWith "A=1") [[]] (some []) = EnvFile.read "A=1" :=
    assigned_treeWith "A=1"
  obtain ⟨source, hload⟩ := load_of_loadable .empty hloadable
  rw [hassigned] at hload
  refine ⟨treeWith "A=1", rfl, ?_, ?_⟩
  · rw [hload]
    show (define .empty (EnvFile.read "A=1").entries).2 = none
    decide +kernel
  · rw [hload]
    show (define .empty (EnvFile.read "A=1").entries).1.entries = _
    decide +kernel

end Environment

end UtilityClass
