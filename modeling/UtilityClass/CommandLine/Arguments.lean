import UtilityClass.Text.Numeral
import UtilityClass.Text.Quoted

/-!
# Reading arguments

A grammar names the options of a command line and says how many operands it takes.  Reading goes in
two passes.  The first one tells options from operands: everything behind `--` is an operand, a
long option may be cut short where that leaves one choice, a value may be attached to its option,
and a negative number or an argument with a space is an operand unless it is an option.  The second
one takes the values of options and one contiguous run of operands; what neither takes is left
over.  Short options that take no value may be written as one bundle, and a `--` attached to an
option that takes a value is no value.
-/

namespace UtilityClass

/-- An option: its names in the order of their listing, and whether a value follows it. -/
structure OptionSpec (κ : Type) where
  key : κ
  names : List Text
  takesValue : Bool

/-- The operands that a grammar takes. -/
inductive Arity where
  /-- At least one operand; the label stands for it in messages. -/
  | oneOrMore (label : Text)
  | optional
  /-- One operand and every argument behind it, options included. -/
  | leading
  deriving DecidableEq, Repr

/-- The options and operands of a command line.  Reading ends at once at the option `help`. -/
structure Grammar (κ : Type) where
  options : List (OptionSpec κ)
  help : κ
  operands : Arity

/-- What is wrong with arguments. -/
inductive UsageError where
  | ambiguous (argument : Text) (names : List Text)
  | ignoredValue (names : List Text) (value : Text)
  | missingValue (names : List Text)
  | missingOperand (label : Text)
  | invalidChoice (label choice : Text) (choices : List Text)
  | unrecognized (arguments : List Text)
  deriving DecidableEq, Repr

/-- The wording of an error in arguments. -/
def UsageError.message : UsageError → Text
  | ambiguous argument names =>
    "ambiguous option: ".toList ++ argument ++ " could match ".toList
      ++ List.intercalate [',', ' '] names
  | ignoredValue names value =>
    "argument ".toList ++ List.intercalate ['/'] names ++ ": ignored explicit argument ".toList
      ++ Text.quoted value
  | missingValue names =>
    "argument ".toList ++ List.intercalate ['/'] names ++ ": expected one argument".toList
  | missingOperand label => "the following arguments are required: ".toList ++ label
  | invalidChoice label choice choices =>
    "argument ".toList ++ label ++ ": invalid choice: ".toList ++ Text.quoted choice
      ++ " (choose from ".toList ++ List.intercalate [',', ' '] (choices.map Text.quoted) ++ [')']
  | unrecognized arguments =>
    "unrecognized arguments: ".toList ++ List.intercalate [' '] arguments

/-- What the first pass takes an argument for. -/
inductive Slot (κ : Type) where
  | operand
  /-- The first `--`. -/
  | terminator
  /-- An option under one of its names, perhaps with a value attached. -/
  | option (spec : OptionSpec κ) (name : Text) (attached : Option Text)
  | unknownOption

namespace Grammar

variable {κ : Type}

/-! ## First pass -/

/-- Every name of an option with the option, in the order of listing. -/
def namedOptions (g : Grammar κ) : List (Text × OptionSpec κ) :=
  g.options.flatMap fun spec => spec.names.map fun name => (name, spec)

/-- The option with exactly this name. -/
def named? (g : Grammar κ) (name : Text) : Option (OptionSpec κ) := g.namedOptions.lookup name

/-- The name before an equals sign, and the value behind it. -/
def splitEquals (argument : Text) : Text × Option Text :=
  match Text.cut? ['='] argument with
  | some (name, value) => (name, some value)
  | none => (argument, none)

/-- What a long option may stand for: every option with a name that it opens. -/
def longMatches (g : Grammar κ) (argument : Text) : List (Text × Slot κ) :=
  let (opening, attached) := splitEquals argument
  (g.namedOptions.filter fun o => opening.isPrefixOf o.1).map fun o =>
    (o.1, .option o.2 o.1 attached)

/-- What a short option may stand for: the option of its first letter, the other letters being a
value, and every option with a name that it opens. -/
def shortMatches (g : Grammar κ) (argument : Text) : List (Text × Slot κ) :=
  g.namedOptions.filterMap fun o =>
    if o.1 = argument.take 2 then some (o.1, .option o.2 o.1 (some (argument.drop 2)))
    else if argument.isPrefixOf o.1 then some (o.1, .option o.2 o.1 none)
    else none

/-- All that an argument with a dash in front may stand for. -/
def optionMatches (g : Grammar κ) (argument : Text) : List (Text × Slot κ) :=
  if ['-', '-'].isPrefixOf argument then g.longMatches argument else g.shortMatches argument

/-- Whether a text is a run of decimal digits, at least one. -/
def isDigits (t : Text) : Bool := !t.isEmpty && t.all Text.isDecimal

/-- Whether an argument is a negative number, up to a final line feed. -/
def isNegativeNumber (argument : Text) : Bool :=
  match argument.chomp with
  | '-' :: number =>
    isDigits number ||
      match Text.cut? ['.'] number with
      | some (whole, fraction) => whole.all Text.isDecimal && isDigits fraction
      | none => false
  | _ => false

/-- What an argument with a dash in front is if it names no option exactly. -/
def slotOfMatches (g : Grammar κ) (argument : Text) : Except UsageError (Slot κ) :=
  match g.optionMatches argument with
  | [] =>
    .ok (if isNegativeNumber argument || argument.contains ' ' then .operand else .unknownOption)
  | [(_, slot)] => .ok slot
  | several => .error (.ambiguous argument (several.map Prod.fst))

/-- What an argument is, `--` apart. -/
def slot (g : Grammar κ) (argument : Text) : Except UsageError (Slot κ) :=
  if argument.head? ≠ some '-' then .ok .operand
  else
    match g.named? argument with
    | some spec => .ok (.option spec argument none)
    | none =>
      if argument = ['-'] then .ok .operand
      else
        match splitEquals argument with
        | (_, none) => g.slotOfMatches argument
        | (name, some attached) =>
          match g.named? name with
          | some spec => .ok (.option spec name (some attached))
          | none => g.slotOfMatches argument

/-- The mark that ends the options. -/
def terminator : Text := "--"

/-- The arguments with what each is. -/
def slots (g : Grammar κ) : List Text → Except UsageError (List (Text × Slot κ))
  | [] => .ok []
  | argument :: more =>
    if argument = terminator then
      .ok ((argument, .terminator) :: more.map fun a => (a, .operand))
    else do
      let slot ← g.slot argument
      let others ← g.slots more
      return (argument, slot) :: others

/-! ## Second pass -/

/-- What has been read of an option: its key, and its value if it has one. -/
abbrev Setting (κ : Type) := κ × Option Text

/-- The value that an attached text stands for: the mark that ends the options is none. -/
def attachedValue? (t : Text) : Option Text := if t = terminator then none else some t

/-- What a bundle of options holds. -/
structure Bundle (κ : Type) where
  settings : List (Setting κ)
  /-- An option at the end of the bundle with nothing attached to it. -/
  last : Option (OptionSpec κ)

/-- Adds a setting in front of a bundle. -/
def Bundle.cons (s : Setting κ) (b : Bundle κ) : Bundle κ :=
  { b with settings := s :: b.settings }

/-- Reads the value attached to an option.  Behind a short option that takes no value, every
further letter has to be a short option of its own, up to one that takes the rest as its value. -/
def unbundle (g : Grammar κ) (spec : OptionSpec κ) (short : Bool) (value : Text) :
    Except UsageError (Bundle κ) :=
  if spec.takesValue then .ok ⟨[(spec.key, attachedValue? value)], none⟩
  else
    match value with
    | [] => .error (.ignoredValue spec.names [])
    | c :: rest =>
      match if short then g.named? ['-', c] else none with
      | none => .error (.ignoredValue spec.names (c :: rest))
      | some next =>
        if rest = [] then .ok ⟨[(spec.key, none)], some next⟩
        else (g.unbundle next true rest).map (.cons (spec.key, none))

/-- The bundle that an option with or without an attached value makes. -/
def bundle (g : Grammar κ) (spec : OptionSpec κ) (name : Text) :
    Option Text → Except UsageError (Bundle κ)
  | none => .ok ⟨[], some spec⟩
  | some value => g.unbundle spec (!terminator.isPrefixOf name) value

/-- How far the run of operands has come. -/
inductive Phase where
  /-- No operand has been met. -/
  | waiting
  /-- The run goes on with operands and `--`. -/
  | running
  /-- The single operand may still follow a `--`. -/
  | opened
  /-- The single operand has been met; a `--` may still follow it. -/
  | closing
  | closed
  deriving DecidableEq, Repr

/-- What has been read. -/
structure Reading (κ : Type) where
  /-- The options in the order in which they were met. -/
  settings : List (Setting κ)
  operands : List Text
  leftOver : List Text

/-- The reading of no arguments. -/
def Reading.empty : Reading κ := ⟨[], [], []⟩

/-- Why reading ends without a reading. -/
inductive Stop where
  | help
  | error (e : UsageError)
  deriving DecidableEq, Repr

/-- Whether an operand is among the arguments. -/
def hasOperand (arguments : List (Text × Slot κ)) : Bool :=
  arguments.any fun a => match a.2 with
    | .operand => true
    | _ => false

/-- Where the run of operands stands after an operand or `--`, if it takes that; `more` are the
arguments behind it. -/
def advance (arity : Arity) (phase : Phase) (atTerminator : Bool)
    (more : List (Text × Slot κ)) : Option Phase :=
  match arity, phase, atTerminator with
  | .optional, .waiting, false => some .closing
  | .optional, .waiting, true => some .opened
  | .optional, .opened, false => some .closing
  | .optional, .closing, true => some .closed
  | .optional, _, _ => none
  | _, .waiting, false => some .running
  | _, .waiting, true => if hasOperand more then some .running else none
  | _, .running, _ => some .running
  | _, _, _ => none

/-- The phase once an option, or an argument that the run does not take, has been met: a run that
has begun is over. -/
def Phase.interrupt : Phase → Phase
  | .waiting => .waiting
  | _ => .closed

/-- Enters settings into a reading; the option `help` stops it. -/
def enter [DecidableEq κ] (g : Grammar κ) (r : Reading κ) (settings : List (Setting κ)) :
    Except Stop (Reading κ) :=
  if settings.any fun s => s.1 = g.help then .error .help
  else .ok { r with settings := r.settings ++ settings }

/-- Adds operands to a reading. -/
def Reading.take (r : Reading κ) (operands : List Text) : Reading κ :=
  { r with operands := r.operands ++ operands }

/-- Adds arguments that nothing takes to a reading. -/
def Reading.leave (r : Reading κ) (arguments : List Text) : Reading κ :=
  { r with leftOver := r.leftOver ++ arguments }

/-- Reads the arguments from left to right. -/
def readSlots [DecidableEq κ] (g : Grammar κ) (phase : Phase) (r : Reading κ) :
    List (Text × Slot κ) → Except Stop (Reading κ)
  | [] => .ok r
  | (argument, .operand) :: more =>
    -- the command line of a command runs to the end of the arguments
    if g.operands = .leading ∧ phase = .waiting then
      .ok (r.take (argument :: more.map Prod.fst))
    else
      match advance g.operands phase false more with
      | some phase' => g.readSlots phase' (r.take [argument]) more
      | none => g.readSlots phase.interrupt (r.leave [argument]) more
  | (argument, .terminator) :: more =>
    match advance g.operands phase true more with
    | some phase' => g.readSlots phase' (r.take [argument]) more
    | none => g.readSlots phase.interrupt (r.leave [argument]) more
  | (argument, .unknownOption) :: more => g.readSlots phase.interrupt (r.leave [argument]) more
  | (_, .option spec name attached) :: more =>
    match g.bundle spec name attached with
    | .error e => .error (.error e)
    | .ok b =>
      match b.last with
      | none => do
        let r' ← g.enter r b.settings
        g.readSlots phase.interrupt r' more
      | some last =>
        if last.takesValue then
          match more with
          | (value, .operand) :: others => do
            let r' ← g.enter r (b.settings ++ [(last.key, some value)])
            g.readSlots phase.interrupt r' others
          | _ => .error (.error (.missingValue last.names))
        else do
          let r' ← g.enter r (b.settings ++ [(last.key, none)])
          g.readSlots phase.interrupt r' more

/-- Takes the first `--` out of the operands, except where they lead a command line of their own. -/
def trimOperands (arity : Arity) (operands : List Text) : List Text :=
  match arity with
  | .leading => operands
  | _ => operands.erase terminator

/-- Reads arguments. -/
def read [DecidableEq κ] (g : Grammar κ) (arguments : List Text) : Except Stop (Reading κ) :=
  match g.slots arguments with
  | .error e => .error (.error e)
  | .ok slots => do
    let r ← g.readSlots .waiting .empty slots
    match g.operands, r.operands with
    | .oneOrMore label, [] => .error (.error (.missingOperand label))
    | arity, operands => return { r with operands := trimOperands arity operands }

end Grammar

end UtilityClass
