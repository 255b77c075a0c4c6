import Mathlib.Data.List.Basic
import UtilityClass.CommandLine.Request
import UtilityClass.Proofs.CommandLine.Arguments

/-!
# Switches added to a command line

The option for a log goes in front of the name of a command, the switches of the command go right
behind it.  A command line that asks for a job asks for the same job with them, and only what they
stand for is switched on.

## Key results

- `read_program_enter`: what the program reads of a command line with additions
- `read_command_switches`: what a command reads of its arguments with switches in front
- `ofArguments_enter`: the request that a command line with additions makes
-/

namespace UtilityClass

/-- A switch of a command that finds tokens. -/
inductive Switch where
  | json
  | failOnReject
  deriving DecidableEq, Repr

namespace Switch

/-- How a switch is written. -/
def text : Switch → Text
  | json => "--json"
  | failOnReject => "--fail-on-reject"

/-- The option that a switch is. -/
def key : Switch → OptionKey
  | json => .json
  | failOnReject => .failOnReject

/-- Switches are different options. -/
theorem key_injective : Function.Injective key := by
  intro s s' h
  cases s <;> cases s' <;> first | rfl | exact nomatch h

/-- No switch ends the options. -/
theorem text_ne_terminator (s : Switch) : s.text ≠ Grammar.terminator := by
  cases s <;> decide

/-- To the program a switch of a command is no option. -/
theorem slot_program (s : Switch) : programGrammar.slot s.text = .ok .unknownOption := by
  cases s <;> rfl

/-- To a command its switch is an option that takes no value. -/
theorem slot_command (s : Switch) (c : Command) :
    ∃ spec, (commandGrammar c).slot s.text = .ok (.option spec s.text none) ∧
      spec.takesValue = false ∧ spec.key = s.key := by
  cases s
  · exact ⟨⟨.json, ["-j", "--json"], false⟩, rfl, rfl, rfl⟩
  · exact ⟨⟨.failOnReject, ["--fail-on-reject"], false⟩, rfl, rfl, rfl⟩

/-- No switch asks for help. -/
theorem key_ne_help (s : Switch) (c : Command) : s.key ≠ (commandGrammar c).help := by
  cases s <;> exact nofun

end Switch

/-- What is added to a command line: the option for a log in front of the name of the command, and
switches of the command right behind it. -/
structure Additions where
  verbose : Bool
  switches : List Switch

namespace Additions

/-- Nothing is added. -/
def nothing : Additions := ⟨false, []⟩

/-- Whether a switch is added. -/
def has (a : Additions) (s : Switch) : Bool := decide (s ∈ a.switches)

/-- What goes in front of the name of the command. -/
def front (a : Additions) : List Text := if a.verbose then ["-v"] else []

/-- What the program reads of the part in front of the name of the command. -/
def settings (a : Additions) : List (Grammar.Setting OptionKey) :=
  if a.verbose then [(.verbose, none)] else []

/-- The name of the command and its arguments, with switches between them. -/
def command (a : Additions) (name : Text) (behind : List Text) : List Text :=
  name :: (a.switches.map Switch.text ++ behind)

/-- A command line with additions.  The operands of the program are the last of its arguments: the
name of the command and all that is behind it. -/
def enter (a : Additions) (arguments : List Text) : List Text :=
  match programGrammar.read arguments with
  | .error _ => arguments
  | .ok r =>
    match r.operands with
    | [] => arguments
    | name :: behind =>
      arguments.take (arguments.length - r.operands.length) ++ (a.front ++ a.command name behind)

/-- A value of an option can look like the name of a command. -/
example : enter ⟨true, [.json]⟩ ["--env-file", "scan", "scan", "a"] =
    ["--env-file", "scan", "-v", "scan", "--json", "a"] := by
  decide +kernel

/-- The job that is described once there are additions. -/
def job (a : Additions) (j : Job) : Job :=
  { j with
    json := j.json || a.has .json
    failOnReject := j.failOnReject || a.has .failOnReject }

/-! ## Reading the program -/

/-- To the program switches are unknown options, which come in front of the others. -/
theorem slots_switches (switches : List Switch) {behind : List Text}
    {rest : List (Text × Slot OptionKey)} (h : programGrammar.slots behind = .ok rest) :
    programGrammar.slots (switches.map Switch.text ++ behind) =
      .ok (switches.map (fun s => (s.text, .unknownOption)) ++ rest) := by
  induction switches with
  | nil => exact h
  | cons s more ih =>
    rw [List.map_cons, List.cons_append,
      Grammar.slots_cons_of_slot s.text_ne_terminator s.slot_program, ih]
    rfl

/-- To the program the name of the command is an operand, and its switches are unknown options. -/
theorem slots_command (a : Additions) {name : Text} (hname : name.head? ≠ some '-')
    {behind : List Text} {rest : List (Text × Slot OptionKey)}
    (h : programGrammar.slots behind = .ok rest) :
    programGrammar.slots (a.command name behind) =
      .ok ((name, .operand) :: (a.switches.map (fun s => (s.text, .unknownOption)) ++ rest)) := by
  have hne : name ≠ Grammar.terminator := by
    rintro rfl
    exact hname rfl
  rw [command, Grammar.slots_cons_of_slot hne (Grammar.slot_of_head?_ne hname),
    slots_switches a.switches h]
  rfl

/-- What the program reads from the place of the command on. -/
theorem exists_slots_front_command (a : Additions) {name : Text} (hname : name.head? ≠ some '-')
    {behind : List Text} {rest : List (Text × Slot OptionKey)}
    (h : programGrammar.slots behind = .ok rest) (r : Grammar.Reading OptionKey) :
    ∃ all, programGrammar.slots (a.front ++ a.command name behind) = .ok all ∧
      programGrammar.readSlots .waiting r all =
        .ok { r with
          settings := r.settings ++ a.settings
          operands := r.operands ++ a.command name behind } := by
  -- from the first operand on, the program takes all arguments as they are
  have hslots := a.slots_command hname h
  have hoperands := Grammar.map_fst_of_slots hslots
  have hread (r' : Grammar.Reading OptionKey) :
      programGrammar.readSlots .waiting r' ((name, .operand) ::
          (a.switches.map (fun s => (s.text, .unknownOption)) ++ rest)) =
        .ok (r'.take (a.command name behind)) := by
    rw [Grammar.readSlots, if_pos ⟨rfl, rfl⟩, ← hoperands]
    rfl
  -- with the option for a log there is one flag more in front of the name
  unfold front settings
  cases a.verbose with
  | false =>
    refine ⟨_, hslots, (hread r).trans ?_⟩
    simp [Grammar.Reading.take]
  | true =>
    let verbose : OptionSpec OptionKey := ⟨.verbose, ["-v", "--verbose"], false⟩
    have hfront : programGrammar.slots ("-v" :: a.command name behind) =
        .ok (("-v", .option verbose "-v" none) :: (name, .operand) ::
          (a.switches.map (fun s => (s.text, .unknownOption)) ++ rest)) := by
      rw [Grammar.slots_cons_of_slot (by decide) (s := .option verbose "-v" none) rfl, hslots]
      rfl
    refine ⟨_, hfront, ?_⟩
    rw [Grammar.readSlots_flag rfl (by decide), hread]
    rfl

/-- A command line whose command is read with nothing left over: what is in front of the command,
and what the program reads with additions. -/
theorem read_program_enter {arguments : List Text} {r : Grammar.Reading OptionKey} {name : Text}
    {behind : List Text} (h : programGrammar.read arguments = .ok r)
    (hoperands : r.operands = name :: behind) (hleft : r.leftOver = [])
    (hname : name.head? ≠ some '-') :
    ∃ before, arguments = before ++ name :: behind ∧ ∀ a : Additions,
      a.enter arguments = before ++ (a.front ++ a.command name behind) ∧
      programGrammar.read (a.enter arguments) =
        .ok ⟨r.settings ++ a.settings, a.command name behind, []⟩ := by
  obtain ⟨before, r₁, rest, rfl, rfl, hrest, hreads⟩ :=
    Grammar.read_leading rfl h hoperands hleft hname
  refine ⟨before, rfl, fun a => ?_⟩
  have henter : a.enter (before ++ name :: behind) =
      before ++ (a.front ++ a.command name behind) := by
    simp [enter, h, hoperands]
  obtain ⟨all, hall, hread⟩ := a.exists_slots_front_command hname hrest r₁
  refine ⟨henter, ?_⟩
  -- nothing was read as an operand in front of the name
  have hempty : r₁.operands = [] := by
    simpa [Grammar.Reading.take] using hoperands
  rw [henter, hreads hall, hread, hempty]
  simp only [Grammar.Reading.take] at hleft ⊢
  rw [hleft, List.nil_append]

/-! ## Reading the command -/

/-- What a command reads with switches in front of its arguments. -/
def withSwitches (switches : List Switch) (r : Grammar.Reading OptionKey) :
    Grammar.Reading OptionKey :=
  { r with settings := switches.map (fun s => (s.key, none)) ++ r.settings }

/-- A command reads the switches in front of its arguments one after the other. -/
theorem read_command_switches (c : Command) (switches : List Switch) (behind : List Text) :
    (commandGrammar c).read (switches.map Switch.text ++ behind) =
      withSwitches switches <$> (commandGrammar c).read behind := by
  induction switches with
  | nil => exact (id_map _).symm
  | cons s more ih =>
    obtain ⟨spec, hslot, hvalue, hkey⟩ := s.slot_command c
    rw [List.map_cons, List.cons_append, Grammar.read_flag s.text_ne_terminator hslot hvalue
      (by rw [hkey]; exact s.key_ne_help c), ih, Functor.map_map, hkey]
    rfl

/-! ## Requests -/

/-- A switch is found among switches if it is one of them. -/
theorem lookup_switches (switches : List Switch) (key : OptionKey) :
    (switches.map fun s => (s.key, (none : Option Text))).lookup key =
      if key ∈ switches.map Switch.key then some none else none := by
  induction switches with
  | nil => rfl
  | cons s more ih =>
    rw [List.map_cons, List.map_cons, List.lookup_cons, ih]
    by_cases hkey : key = s.key
    · simp [hkey]
    · simp [hkey, beq_eq_false_iff_ne.2 hkey]

/-- With switches in front, an option is given if it was given or is one of the switches. -/
theorem given?_switches (r : Grammar.Reading OptionKey) (switches : List Switch)
    (key : OptionKey) :
    (withSwitches switches r).given? key =
      (r.given? key).or (if key ∈ switches.map Switch.key then some none else none) := by
  simp only [withSwitches, Grammar.Reading.given?, List.reverse_append, List.lookup_append,
    ← List.map_reverse, lookup_switches]
  simp only [List.map_reverse, List.mem_reverse]

/-- The job of a command with switches in front of its arguments. -/
theorem jobOf_switches (a : Additions) (c : Command) (r : Grammar.Reading OptionKey) :
    Request.jobOf c (withSwitches a.switches r) = a.job (Request.jobOf c r) := by
  -- no switch is one of the options that say how tokens are read
  have hother (key : OptionKey) (hkey : ∀ s : Switch, s.key ≠ key) :
      key ∉ a.switches.map Switch.key := by
    simpa using fun s _ => hkey s
  have hswitch (s : Switch) : s.key ∈ a.switches.map Switch.key ↔ s ∈ a.switches :=
    List.mem_map_of_injective Switch.key_injective
  have hseparator := hother .separator (by intro s; cases s <;> exact nofun)
  have hprefix := hother .classPrefix (by intro s; cases s <;> exact nofun)
  have hstrip := hother .stripPrefix (by intro s; cases s <;> exact nofun)
  -- what is switched on was on before or is added
  have hhas (s : Switch) :
      (withSwitches a.switches r).has s.key = (r.has s.key || a.has s) := by
    simp only [Grammar.Reading.has, given?_switches, hswitch, Option.isSome_or, has]
    split <;> simp [*]
  simp only [Request.jobOf, job, Grammar.Reading.text?, given?_switches, if_neg hseparator,
    if_neg hprefix, Option.or_none]
  congr 1
  · simp only [Grammar.Reading.has, given?_switches, if_neg hstrip, Option.or_none]
    rfl
  · exact hhas .json
  · exact hhas .failOnReject

/-- A command is found under its name, which has no dash in front. -/
theorem name_of_named? {name : Text} {c : Command} (h : Command.named? name = some c) :
    c.name = name ∧ name.head? ≠ some '-' := by
  have hname : c.name = name := by simpa using List.find?_some h
  have hmem : c ∈ [Command.parse, Command.scan] := List.mem_of_find?_eq_some h
  subst hname
  simp only [List.mem_cons, List.not_mem_nil, or_false] at hmem
  obtain rfl | rfl := hmem <;> decide

/-- A job is described by the name of a command and the arguments of the command. -/
theorem exists_of_taskOf_eq_job {operands leftOver : List Text} {j : Job}
    (h : Request.taskOf operands = .ok (.job j, leftOver)) :
    ∃ c behind r, operands = c.name :: behind ∧ Command.named? c.name = some c ∧
      (commandGrammar c).read behind = .ok r ∧ j = Request.jobOf c r ∧ leftOver = r.leftOver := by
  -- of all branches only one ends in a job
  unfold Request.taskOf at h
  split at h
  · cases h
  · next name behind =>
    split at h
    · next c hc =>
      split at h
      · cases h
      · next r hr =>
        cases h
        obtain ⟨rfl, -⟩ := name_of_named? hc
        exact ⟨c, behind, r, rfl, hc, hr, rfl, rfl⟩
    · split at h
      · split at h <;> cases h
      · cases h

/-- The task of a command with switches is its job with the additions. -/
theorem taskOf_command (a : Additions) {behind : List Text} {c : Command}
    {r : Grammar.Reading OptionKey} (hc : Command.named? c.name = some c)
    (hr : (commandGrammar c).read behind = .ok r) :
    Request.taskOf (a.command c.name behind) =
      .ok (.job (a.job (Request.jobOf c r)), r.leftOver) := by
  have hread : (commandGrammar c).read (a.switches.map Switch.text ++ behind) =
      .ok (withSwitches a.switches r) := by
    rw [read_command_switches, hr]
    rfl
  rw [command, Request.taskOf, hc]
  simp only [hread, jobOf_switches]
  rfl

/-- The program is given its own options as before, and the option for a log if it is added. -/
theorem given?_settings (a : Additions) {r r' : Grammar.Reading OptionKey}
    (h : r'.settings = r.settings ++ a.settings) (key : OptionKey) :
    r'.given? key =
      if a.verbose = true ∧ key = .verbose then some none else r.given? key := by
  rw [Grammar.Reading.given?, h, List.reverse_append, List.lookup_append, settings]
  -- the additions come last, so they are looked at first
  cases a.verbose with
  | false => simp [Grammar.Reading.given?]
  | true =>
    by_cases hkey : key = .verbose
    · simp [hkey]
    · simp [hkey, Grammar.Reading.given?, List.lookup_cons, beq_eq_false_iff_ne.2 hkey]

/-- What is read of a command line that asks for a job. -/
theorem exists_of_ofArguments_eq_job {arguments : List Text} {request : Request} {j : Job}
    (h : Request.ofArguments arguments = .ok request) (hjob : request.task = .job j) :
    ∃ r c behind r', programGrammar.read arguments = .ok r ∧ r.operands = c.name :: behind ∧
      r.leftOver = [] ∧ Command.named? c.name = some c ∧
      (commandGrammar c).read behind = .ok r' ∧ r'.leftOver = [] ∧ j = Request.jobOf c r' ∧
      request.envFile = r.text? .envFile ∧ request.verbose = r.has .verbose := by
  unfold Request.ofArguments at h
  split at h
  · exact nomatch h
  · next r hread =>
    split at h
    · exact nomatch h
    -- nothing is left over by the program or by the command
    · next task leftOver htask =>
      split at h
      · next hall =>
        cases h
        obtain ⟨hleft, rfl⟩ := List.append_eq_nil_iff.1 hall
        obtain rfl : task = .job j := hjob
        obtain ⟨c, behind, r', hoperands, hc, hr', rfl, hr'left⟩ :=
          exists_of_taskOf_eq_job htask
        exact ⟨r, c, behind, r', hread, hoperands, hleft, hc, hr', hr'left.symm, rfl, rfl, rfl⟩
      · exact nomatch h

/-- A command line that asks for a job asks for the job with the additions once they are there. -/
theorem ofArguments_enter {arguments : List Text} {request : Request} {j : Job}
    (h : Request.ofArguments arguments = .ok request) (hjob : request.task = .job j) :
    ∃ before behind, arguments = before ++ j.command.name :: behind ∧ ∀ a : Additions,
      a.enter arguments = before ++ (a.front ++ a.command j.command.name behind) ∧
      Request.ofArguments (a.enter arguments) =
        .ok ⟨request.envFile, request.verbose || a.verbose, .job (a.job j)⟩ := by
  obtain ⟨r, c, behind, r', hread, hoperands, hleft, hc, hr', hr'left, rfl, henvFile, hverbose⟩ :=
    exists_of_ofArguments_eq_job h hjob
  obtain ⟨before, harguments, henter⟩ :=
    read_program_enter hread hoperands hleft (name_of_named? hc).2
  refine ⟨before, behind, harguments, fun a => ⟨(henter a).1, ?_⟩⟩
  have hgiven (key : OptionKey) :
      (⟨r.settings ++ a.settings, a.command c.name behind, []⟩ :
        Grammar.Reading OptionKey).given? key =
          if a.verbose = true ∧ key = .verbose then some none else r.given? key :=
    a.given?_settings rfl key
  -- the program and the command are read apart, and each has its own additions
  rw [Request.ofArguments, (henter a).2]
  simp only [a.taskOf_command hc hr', hr'left, List.append_nil, henvFile, hverbose,
    Grammar.Reading.text?, Grammar.Reading.has, hgiven]
  cases a.verbose <;> simp

end Additions

end UtilityClass
