import UtilityClass.CommandLine.Arguments

/-!
# Arguments in place

What the second pass of reading makes of arguments is added to what it has read before, so the
arguments in front of a command can be read apart from the ones behind it.  The arguments that lead
to a command are options with their values.  What follows them may change and they are read as
before, and a flag next to the first argument of a grammar only adds its setting.

## Key results

- `readSlots_append`: reading goes on from what was read before
- `read_leading`: the arguments in front of a command, and what they do whatever follows
- `read_flag`: a flag in front of all other arguments
-/

namespace UtilityClass

namespace Grammar

variable {κ : Type}

/-! ## Adding to a reading -/

/-- One reading, then another. -/
def Reading.append (r r' : Reading κ) : Reading κ :=
  ⟨r.settings ++ r'.settings, r.operands ++ r'.operands, r.leftOver ++ r'.leftOver⟩

/-- Nothing is added to a reading by an empty one. -/
theorem Reading.append_empty (r : Reading κ) : r.append .empty = r := by
  simp [append, empty]

/-- Operands taken behind both readings are taken in the second one. -/
theorem Reading.append_take (r r' : Reading κ) (operands : List Text) :
    (r.append r').take operands = r.append (r'.take operands) := by
  simp [take, append]

/-- Arguments left over behind both readings are left over in the second one. -/
theorem Reading.append_leave (r r' : Reading κ) (arguments : List Text) :
    (r.append r').leave arguments = r.append (r'.leave arguments) := by
  simp [leave, append]

section

variable [DecidableEq κ]

/-- Settings entered behind both readings are entered in the second one. -/
theorem enter_append (g : Grammar κ) (r r' : Reading κ) (settings : List (Setting κ)) :
    g.enter (r.append r') settings = r.append <$> g.enter r' settings := by
  -- whether help is asked for depends on the settings that are entered, not on what was read before
  unfold enter
  split
  · rfl
  · simp only [Reading.append, List.append_assoc]
    rfl

/-- A setting other than `help` is entered behind the others. -/
theorem enter_singleton {g : Grammar κ} {key : κ} (h : key ≠ g.help) (r : Reading κ) :
    g.enter r [(key, none)] = .ok { r with settings := r.settings ++ [(key, none)] } := by
  simp [enter, h]

/-- Reading goes on from what was read before. -/
theorem readSlots_append (g : Grammar κ) (phase : Phase) (r r' : Reading κ)
    (slots : List (Text × Slot κ)) :
    g.readSlots phase (r.append r') slots = r.append <$> g.readSlots phase r' slots := by
  -- how the run of operands advances depends on the arguments alone, so both sides keep in step
  fun_induction readSlots g phase r' slots with
  | case1 phase r' => rfl
  | case2 phase r' argument more hleading =>
    rw [readSlots, if_pos hleading, Reading.append_take]
    rfl
  | case3 phase r' argument more hleading phase' hphase ih =>
    rw [readSlots, if_neg hleading, hphase, ← ih, Reading.append_take]
  | case4 phase r' argument more hleading hphase ih =>
    rw [readSlots, if_neg hleading, hphase, ← ih, Reading.append_leave]
  | case5 phase r' argument more phase' hphase ih =>
    rw [readSlots, hphase, ← ih, Reading.append_take]
  | case6 phase r' argument more hphase ih =>
    rw [readSlots, hphase, ← ih, Reading.append_leave]
  | case7 phase r' argument more ih => rw [readSlots, ← ih, Reading.append_leave]
  | case8 phase r' argument spec name attached more e hbundle =>
    rw [readSlots, hbundle]
    rfl
  | case9 phase r' argument spec name attached more b hbundle hlast ih =>
    -- an option enters its settings behind those that were there, and the rest is read from there
    simp only [readSlots, hbundle, hlast, enter_append, map_bind, bind_map_left, ih]
  | case10 phase r' argument spec name attached b hbundle last hlast hvalue value others ih =>
    simp only [readSlots, hbundle, hlast, hvalue, if_true, enter_append, map_bind, bind_map_left,
      ih]
  | case11 phase r' argument spec name attached more b hbundle last hlast hvalue hmore =>
    simp only [readSlots, hbundle, hlast, hvalue, if_true]
    rfl
  | case12 phase r' argument spec name attached more b hbundle last hlast hvalue ih =>
    simp only [readSlots, hbundle, hlast, hvalue, if_false, enter_append, map_bind, bind_map_left,
      ih, Bool.false_eq_true]

/-- Reading takes nothing back. -/
theorem exists_append_of_readSlots {g : Grammar κ} {phase : Phase} {r r' : Reading κ}
    {slots : List (Text × Slot κ)} (h : g.readSlots phase r slots = .ok r') :
    ∃ more, r' = r.append more := by
  -- what is read from nothing is what is added
  have happend := g.readSlots_append phase r .empty slots
  rw [r.append_empty, h] at happend
  cases hread : g.readSlots phase .empty slots with
  | error e =>
    rw [hread] at happend
    exact nomatch happend
  | ok more =>
    rw [hread] at happend
    exact ⟨more, Except.ok.inj happend⟩

end

/-! ## Slots -/

variable {g : Grammar κ}

/-- An argument without a dash in front is an operand. -/
theorem slot_of_head?_ne {argument : Text} (h : argument.head? ≠ some '-') :
    g.slot argument = .ok .operand := by
  rw [slot, if_pos h]

/-- An argument that does not end the options has a slot of its own. -/
theorem slots_cons_of_slot {argument : Text} {s : Slot κ} (hne : argument ≠ terminator)
    (h : g.slot argument = .ok s) (more : List Text) :
    g.slots (argument :: more) = (fun others => (argument, s) :: others) <$> g.slots more := by
  rw [slots, if_neg hne, h]
  rfl

/-- The slot of the first of some arguments that goes in front of the slots of the others. -/
theorem slots_cons_eq_ok {argument : Text} {more : List Text} {all : List (Text × Slot κ)}
    (h : g.slots (argument :: more) = .ok all) :
    (argument = terminator ∧ all = (argument, .terminator) :: more.map fun a => (a, .operand)) ∨
    (argument ≠ terminator ∧ ∃ s others, g.slot argument = .ok s ∧ g.slots more = .ok others ∧
      all = (argument, s) :: others) := by
  rw [slots] at h
  split at h
  · next hterminator => exact .inl ⟨hterminator, (Except.ok.inj h).symm⟩
  · next hne =>
    cases hslot : g.slot argument with
    | error e =>
      rw [hslot] at h
      exact nomatch h
    | ok s =>
      cases hslots : g.slots more with
      | error e =>
        rw [hslot, hslots] at h
        exact nomatch h
      | ok others =>
        rw [hslot, hslots] at h
        exact .inr ⟨hne, s, others, rfl, rfl, (Except.ok.inj h).symm⟩

/-- An argument without a dash in front ends no options. -/
theorem not_mem_slots_of_head?_ne {argument : Text} (hhead : argument.head? ≠ some '-')
    {arguments : List Text} {all : List (Text × Slot κ)} (h : g.slots arguments = .ok all) :
    (argument, .terminator) ∉ all := by
  -- argument by argument; the mark itself opens with a dash
  induction arguments generalizing all with
  | nil =>
    cases h
    exact List.not_mem_nil
  | cons first more ih =>
    obtain ⟨rfl, rfl⟩ | ⟨-, s, others, hslot, hothers, rfl⟩ := slots_cons_eq_ok h
    · -- behind the first mark all arguments are operands
      intro hmem
      obtain hmem | hmem := List.mem_cons.1 hmem
      · exact hhead (by rw [(Prod.mk.inj hmem).1]; rfl)
      · simp at hmem
    · intro hmem
      obtain hmem | hmem := List.mem_cons.1 hmem
      · obtain ⟨rfl, rfl⟩ := Prod.mk.inj hmem
        rw [slot_of_head?_ne hhead] at hslot
        exact nomatch hslot
      · exact ih hothers hmem

/-- Up to the end of the options, arguments have the same slots whatever follows them. -/
theorem exists_of_slots_eq_append {arguments : List Text} {front rest : List (Text × Slot κ)}
    (h : g.slots arguments = .ok (front ++ rest)) (hfront : ∀ a ∈ front, a.2 ≠ .terminator) :
    ∃ before behind, arguments = before ++ behind ∧ g.slots behind = .ok rest ∧
      ∀ others, g.slots (before ++ others) = (front ++ ·) <$> g.slots others := by
  -- slot by slot, each for one argument
  induction front generalizing arguments with
  | nil => exact ⟨[], arguments, rfl, h, fun others => (id_map _).symm⟩
  | cons a front ih =>
    obtain ⟨hslot, hslots⟩ := List.forall_mem_cons.1 hfront
    cases arguments with
    | nil => exact nomatch h
    | cons first more =>
      obtain ⟨-, hall⟩ | ⟨hne, s, others, hs, hothers, hall⟩ := slots_cons_eq_ok h
      · obtain ⟨rfl, -⟩ := List.cons.inj hall
        exact absurd rfl hslot
      · obtain ⟨rfl, rfl⟩ := List.cons.inj hall
        obtain ⟨before, behind, rfl, hbehind, hbefore⟩ := ih hothers hslots
        refine ⟨first :: before, behind, rfl, hbehind, fun others => ?_⟩
        rw [List.cons_append, slots_cons_of_slot hne hs, hbefore, Functor.map_map]
        rfl

/-- The slots are those of the arguments, in their order. -/
theorem map_fst_of_slots {arguments : List Text} {all : List (Text × Slot κ)}
    (h : g.slots arguments = .ok all) : all.map Prod.fst = arguments := by
  induction arguments generalizing all with
  -- the mark keeps its argument, and so do the operands behind it
  | nil =>
    cases h
    rfl
  | cons first more ih =>
    obtain ⟨-, rfl⟩ | ⟨-, s, others, -, hothers, rfl⟩ := slots_cons_eq_ok h
    · simp [Function.comp_def]
    · rw [List.map_cons, ih hothers]

/-! ## Options -/

/-- What an option is set to, and what stands behind the option and its value. -/
def readOption (g : Grammar κ) (spec : OptionSpec κ) (name : Text) (attached : Option Text)
    (more : List (Text × Slot κ)) :
    Except UsageError (List (Setting κ) × List (Text × Slot κ)) :=
  match g.bundle spec name attached with
  | .error e => .error e
  | .ok b =>
    match b.last with
    | none => .ok (b.settings, more)
    | some last =>
      if last.takesValue then
        match more with
        | (value, .operand) :: others => .ok (b.settings ++ [(last.key, some value)], others)
        | _ => .error (.missingValue last.names)
      else .ok (b.settings ++ [(last.key, none)], more)

/-- An option takes its value, if any, from the operands next to it, whatever is behind them. -/
theorem exists_taken_of_readOption {spec : OptionSpec κ} {name : Text}
    {attached : Option Text} {more rest : List (Text × Slot κ)} {settings : List (Setting κ)}
    (h : g.readOption spec name attached more = .ok (settings, rest)) :
    ∃ taken, more = taken ++ rest ∧ (∀ a ∈ taken, a.2 = .operand) ∧
      ∀ rest', g.readOption spec name attached (taken ++ rest') = .ok (settings, rest') := by
  unfold readOption at h ⊢
  split at h
  · exact nomatch h
  · split at h
    · cases h
      -- the last option of the bundle takes a value or none
      exact ⟨[], rfl, List.forall_mem_nil _, fun rest' => rfl⟩
    · split at h
      · next hvalue =>
        split at h
        · next value others =>
          cases h
          refine ⟨[(value, .operand)], rfl, by simp, fun rest' => ?_⟩
          simp only [hvalue, if_true, List.cons_append, List.nil_append]
        · exact nomatch h
      · next hvalue =>
        cases h
        refine ⟨[], rfl, List.forall_mem_nil _, fun rest' => ?_⟩
        simp only [hvalue, List.nil_append]
        rfl

variable [DecidableEq κ]

/-- Reading an option is taking its value and going on behind it, where a run of operands has
    ended. -/
theorem readSlots_option (g : Grammar κ) (phase : Phase) (r : Reading κ) (argument : Text)
    (spec : OptionSpec κ) (name : Text) (attached : Option Text) (more : List (Text × Slot κ)) :
    g.readSlots phase r ((argument, .option spec name attached) :: more) =
      match g.readOption spec name attached more with
      | .error e => .error (.error e)
      | .ok (settings, rest) =>
        g.enter r settings >>= fun r' => g.readSlots phase.interrupt r' rest := by
  rw [readSlots.eq_def, readOption.eq_def]
  dsimp only
  cases g.bundle spec name attached with
  | error e => rfl
  | ok b =>
    dsimp only
    cases b.last with
    | none => rfl
    | some last =>
      dsimp only
      by_cases hvalue : last.takesValue = true
      · rw [if_pos hvalue, if_pos hvalue]
        -- only an operand next to the option can be its value
        obtain _ | ⟨⟨value, _ | _ | _ | _⟩, others⟩ := more <;> rfl
      · rw [if_neg hvalue, if_neg hvalue]

/-- An option that takes no value and stands by itself adds its setting and nothing else. -/
theorem readSlots_flag {spec : OptionSpec κ} (hvalue : spec.takesValue = false)
    (hhelp : spec.key ≠ g.help) (r : Reading κ) (argument name : Text)
    (more : List (Text × Slot κ)) :
    g.readSlots .waiting r ((argument, .option spec name none) :: more) =
      g.readSlots .waiting { r with settings := r.settings ++ [(spec.key, none)] } more := by
  rw [readSlots_option]
  simp only [readOption, bundle, hvalue, Bool.false_eq_true, if_false, List.nil_append,
    enter_singleton hhelp]
  rfl

/-! ## In front of a command -/

/-- Arguments in front of a command: reading goes through them in the same way whatever follows,
takes no operand and meets no end of the options. -/
structure LeadsTo (g : Grammar κ) (r : Reading κ) (front : List (Text × Slot κ))
    (r' : Reading κ) : Prop where
  reads : ∀ rest, g.readSlots .waiting r (front ++ rest) = g.readSlots .waiting r' rest
  operands : r'.operands = r.operands
  unended : ∀ a ∈ front, a.2 ≠ .terminator

/-- Where nothing is in front, reading is where it began. -/
theorem leadsTo_nil (g : Grammar κ) (r : Reading κ) : g.LeadsTo r [] r :=
  ⟨fun _ => rfl, rfl, List.forall_mem_nil _⟩

/-- An option with its value leads on. -/
theorem LeadsTo.option {r r₁ r' : Reading κ} {spec : OptionSpec κ} {name : Text}
    {attached : Option Text} {settings : List (Setting κ)} {taken front : List (Text × Slot κ)}
    (argument : Text) (htaken : ∀ a ∈ taken, a.2 = .operand)
    (hreads : ∀ rest, g.readOption spec name attached (taken ++ rest) = .ok (settings, rest))
    (henter : g.enter r settings = .ok r₁) (hoperands : r₁.operands = r.operands)
    (h : g.LeadsTo r₁ front r') :
    g.LeadsTo r ((argument, .option spec name attached) :: taken ++ front) r' where
  reads rest := by
    rw [List.cons_append, List.cons_append, List.append_assoc, readSlots_option, hreads]
    simp only [henter]
    exact h.reads rest
  operands := h.operands.trans hoperands
  unended := by
    rw [List.cons_append]
    -- neither the option nor its value ends the options
    refine List.forall_mem_cons.2 ⟨nofun, List.forall_mem_append.2 ⟨fun a ha => ?_, h.unended⟩⟩
    rw [htaken a ha]
    exact nofun

/-- Entering settings leaves the operands alone. -/
theorem exists_of_enter_bind {r r' : Reading κ} {settings : List (Setting κ)}
    {f : Reading κ → Except Stop (Reading κ)} (h : g.enter r settings >>= f = .ok r') :
    ∃ r₁, g.enter r settings = .ok r₁ ∧ r₁.operands = r.operands ∧ f r₁ = .ok r' := by
  unfold enter at h ⊢
  split at h
  · exact nomatch h
  · next hhelp =>
    exact ⟨{ r with settings := r.settings ++ settings }, by rw [if_neg hhelp], rfl, h⟩

/-- If a command is read and nothing is left over, options with their values lead to its name. -/
theorem exists_leadsTo (hg : g.operands = .leading) {r r' : Reading κ}
    {all : List (Text × Slot κ)} {name : Text} {behind : List Text}
    (h : g.readSlots .waiting r all = .ok r')
    (hoperands : r'.operands = r.operands ++ name :: behind) (hleft : r'.leftOver = [])
    (hname : (name, .terminator) ∉ all) :
    ∃ front rest r₁, all = front ++ (name, .operand) :: rest ∧ rest.map Prod.fst = behind ∧
      g.LeadsTo r front r₁ := by
  -- by the first slot: an operand is the name, a mark or an unknown option would be left over, and
  -- an option leads on
  match all with
  | [] =>
    cases h
    simp at hoperands
  | (a, .operand) :: rest =>
    rw [readSlots, if_pos ⟨hg, rfl⟩] at h
    cases h
    obtain ⟨rfl, hrest⟩ := List.cons.inj (List.append_cancel_left hoperands)
    exact ⟨[], rest, r, rfl, hrest, g.leadsTo_nil r⟩
  | (a, .terminator) :: rest =>
    rw [readSlots, hg] at h
    dsimp only [advance] at h
    split at h
    · -- the end of the options itself would be the name of the command
      obtain ⟨more, rfl⟩ := exists_append_of_readSlots h
      simp [Reading.append, Reading.take] at hoperands
      simp [hoperands] at hname
    · obtain ⟨more, rfl⟩ := exists_append_of_readSlots h
      simp [Reading.append, Reading.leave] at hleft
  | (a, .unknownOption) :: rest =>
    rw [readSlots] at h
    obtain ⟨more, rfl⟩ := exists_append_of_readSlots h
    simp [Reading.append, Reading.leave] at hleft
  | (a, .option spec n attached) :: rest =>
    rw [readSlots_option] at h
    split at h
    · exact nomatch h
    · next settings rest' hoption =>
      -- the option and its value lead on to where the others are read
      obtain ⟨taken, rfl, htaken, hreads⟩ := exists_taken_of_readOption hoption
      obtain ⟨r₁, henter, hr₁, h⟩ := exists_of_enter_bind h
      have hname' : (name, .terminator) ∉ rest' := fun hmem =>
        hname (List.mem_cons_of_mem _ (List.mem_append_right _ hmem))
      obtain ⟨front, rest, r₂, rfl, hrest, hlead⟩ :=
        exists_leadsTo hg h (by rw [hoperands, hr₁]) hleft hname'
      exact ⟨_, rest, r₂, by simp, hrest, hlead.option a htaken hreads henter hr₁⟩
termination_by all.length

/-! ## Reading -/

/-- With leading operands, reading is what the second pass makes of the slots. -/
theorem read_of_leading (hg : g.operands = .leading) {arguments : List Text}
    {all : List (Text × Slot κ)} (h : g.slots arguments = .ok all) :
    g.read arguments = g.readSlots .waiting .empty all := by
  rw [read, h, hg]
  dsimp only
  cases g.readSlots .waiting .empty all <;> rfl

/-- The arguments in front of a command: reading goes through them in the same way whatever
    follows. -/
theorem read_leading (hg : g.operands = .leading) {arguments : List Text} {r : Reading κ}
    {name : Text} {behind : List Text} (h : g.read arguments = .ok r)
    (hoperands : r.operands = name :: behind) (hleft : r.leftOver = [])
    (hname : name.head? ≠ some '-') :
    ∃ front r₁ rest, arguments = front ++ name :: behind ∧ r = r₁.take (name :: behind) ∧
      g.slots behind = .ok rest ∧
      ∀ {others all}, g.slots others = .ok all →
        g.read (front ++ others) = g.readSlots .waiting r₁ all := by
  -- the slots are cut where the name is, and the arguments at the same place
  cases hslots : g.slots arguments with
  | error e =>
    rw [read, hslots] at h
    exact nomatch h
  | ok all =>
    have hread := h
    rw [read_of_leading hg hslots] at hread
    obtain ⟨front, rest, r₁, rfl, hrest, hlead⟩ := exists_leadsTo hg hread
      (by rw [hoperands]; rfl) hleft (not_mem_slots_of_head?_ne hname hslots)
    obtain ⟨before, behind', rfl, hbehind', hbefore⟩ :=
      exists_of_slots_eq_append hslots hlead.unended
    -- the name of the command is an operand, so what is behind it has slots of its own
    have hnames := map_fst_of_slots hbehind'
    rw [List.map_cons, hrest] at hnames
    subst hnames
    rw [hlead.reads, readSlots, if_pos ⟨hg, rfl⟩, hrest] at hread
    obtain ⟨-, hall⟩ | ⟨-, s, others, -, hothers, hall⟩ := slots_cons_eq_ok hbehind'
    · exact nomatch (Prod.mk.inj (List.cons.inj hall).1).2
    · obtain ⟨-, rfl⟩ := List.cons.inj hall
      refine ⟨before, r₁, rest, rfl, (Except.ok.inj hread).symm, hothers, ?_⟩
      intro others all hall
      have hslots' : g.slots (before ++ others) = .ok (front ++ all) := by
        rw [hbefore, hall]
        rfl
      rw [read_of_leading hg hslots', hlead.reads]

/-- A flag in front of all other arguments adds its setting and nothing else. -/
theorem read_flag {argument name : Text} {spec : OptionSpec κ} (hne : argument ≠ terminator)
    (hslot : g.slot argument = .ok (.option spec name none)) (hvalue : spec.takesValue = false)
    (hhelp : spec.key ≠ g.help) (more : List Text) :
    g.read (argument :: more) =
      (fun r => { r with settings := (spec.key, none) :: r.settings }) <$> g.read more := by
  -- the flag comes first in the slots, and reading the others starts behind its setting
  rw [read, slots_cons_of_slot hne hslot, read]
  cases g.slots more with
  | error e => rfl
  | ok all =>
    have hread : g.readSlots .waiting .empty ((argument, .option spec name none) :: all) =
        Reading.append ⟨[(spec.key, none)], [], []⟩ <$> g.readSlots .waiting .empty all := by
      rw [readSlots_flag hvalue hhelp, ← readSlots_append, Reading.append_empty]
      rfl
    change (g.readSlots .waiting .empty ((argument, .option spec name none) :: all) >>= _) = _
    rw [hread]
    dsimp only
    cases g.readSlots .waiting .empty all with
    | error stop => rfl
    | ok r =>
      obtain ⟨settings, operands, leftOver⟩ := r
      cases g.operands <;> cases operands <;> rfl

end Grammar

end UtilityClass
