import UtilityClass.Proofs.Value.Components
import UtilityClass.Value.Color

/-!
# Numbers, percentages and lengths

The three numeric types share the numeric functions.  All else that they accept is a numeral with
nothing, a percent sign or a unit behind it, up to a final line feed, and a bare zero is a length.
What stands behind the numeral tells the types apart: neither a percent sign nor a unit can go on
with a number, not even a unit that begins like an exponent.

## Key results

- `isNumericCall_iff`: what is taken for a numeric function
- `afterNumber?_chomp_eq_some_iff`: what is read as a numeral with a given text behind it
- `infer?_of_accepts`: a numeral is inferred to be of the type that accepts it
- `numeric_guards`: what the three guards accept, and that they are apart
-/

namespace UtilityClass.Value

/-! ## The grammar -/

/-- Whether a text is another one with at most a line feed behind it. -/
def IsUpToLineFeed (u t : Text) : Prop := t = u ∨ t = u ++ ['\n']

/-- Whether a text is one of the numeric functions, applied to a text without line feeds. -/
def IsNumericFunction (t : Text) : Prop :=
  ∃ name ∈ numericFunctions, ∃ inner : Text, '\n' ∉ inner ∧
    IsUpToLineFeed (name ++ '(' :: inner ++ [')']) t

/-- Whether a text is a numeral with a suffix. -/
def IsNumeralWith (suffix t : Text) : Prop :=
  ∃ n : Numeral, n.measure = .plain ∧ IsUpToLineFeed (n.text [] ++ suffix) t

/-- The types of what can be counted or measured. -/
def numericTypes : List DataType := [.number, .percentage, .length]

/-- What stands behind the numeral in a value of a numeric type. -/
def numeralSuffixes : DataType → List Text
  | .number => [[]]
  | .percentage => [['%']]
  | .length => lengthUnits
  | _ => []

variable {t : Text}

/-! ## Functions -/

/-- A function call in the list of names is one of them around a text without line feeds. -/
theorem isCall_iff {names : List Text} :
    isCall names t = true ↔ ∃ name ∈ names, ∃ inner : Text, '\n' ∉ inner ∧
      t.chomp = name ++ '(' :: inner ++ [')'] := by
  simp only [isCall, List.any_eq_true, Option.any_eq_true, Text.enclosed?_eq_some_iff,
    decide_eq_true_eq, List.append_assoc, List.cons_append, List.nil_append, and_comm]

/-- The numeric functions are recognized up to a final line feed. -/
theorem isNumericCall_iff : isNumericCall t = true ↔ IsNumericFunction t := by
  -- the closing parenthesis is no line feed, so chomping takes at most what is behind it
  have hfeed (name inner : Text) :
      t.chomp = name ++ '(' :: inner ++ [')'] ↔
        IsUpToLineFeed (name ++ '(' :: inner ++ [')']) t := by
    apply Text.chomp_eq_iff
    rw [List.getLast?_concat]
    decide
  simp only [isNumericCall, isCall_iff, IsNumericFunction, hfeed]

/-! ## Numerals -/

/-- No unit of length goes on with a number. -/
theorem endsNumber_of_mem_lengthUnits {u : Text} (h : u ∈ lengthUnits) : EndsNumber u := by
  have hall : ∀ u ∈ lengthUnits, EndsNumber u := by decide
  exact hall u h

/-- A text is read as a numeral with a suffix exactly if it is one. -/
theorem afterNumber?_chomp_eq_some_iff {suffix : Text} (hend : EndsNumber suffix)
    (hnonblank : ∀ c ∈ suffix, Text.isBlank c = false) :
    afterNumber? t.chomp = some suffix ↔ IsNumeralWith suffix t := by
  have hfeed (n : Numeral) (hplain : n.measure = .plain) :
      t.chomp = n.text [] ++ suffix ↔ IsUpToLineFeed (n.text [] ++ suffix) t := by
    apply Text.chomp_eq_iff
    intro hlast
    -- a line feed is a blank, and there is none in a numeral
    have hmem := List.mem_of_getLast? hlast
    have hblank := List.forall_mem_append.2 ⟨n.nonblank hplain, hnonblank⟩ '\n' hmem
    exact absurd hblank (by decide)
  -- both sides name the same numeral, and differ in the line feed alone
  rw [afterNumber?_eq_some_iff hend]
  constructor
  · intro h
    obtain ⟨n, hplain, ht⟩ := h
    exact ⟨n, hplain, (hfeed n hplain).1 ht⟩
  · intro h
    obtain ⟨n, hplain, ht⟩ := h
    exact ⟨n, hplain, (hfeed n hplain).2 ht⟩

/-- A number is a numeric function or a numeral with nothing behind it. -/
theorem isNumber_iff :
    isNumber t = true ↔ isNumericCall t = true ∨ afterNumber? t.chomp = some [] := by
  rw [isNumber, Bool.or_eq_true, or_comm, any_afterNumber?_chomp (fun rest => rest = [])]
  simp

/-! ## Inference -/

/-- A numeral is no address. -/
theorem isUrl_eq_false_of_afterNumber? {rest : Text} (h : afterNumber? t.chomp = some rest) :
    isUrl t = false := by
  rw [← Bool.not_eq_true, isUrl, Option.isSome_iff_exists]
  rintro ⟨inner, hinner⟩
  rw [Text.enclosed?_eq_some_iff] at hinner
  -- an address ends in a parenthesis, so there is no line feed to take away
  have hchomp : t.chomp = t := by
    apply Text.chomp_of_getLast?_ne
    rw [hinner, List.getLast?_concat]
    decide
  rw [hchomp, hinner] at h
  exact nomatch (afterNumber?_cons_of_letter (c := 'u') (by decide) _).symm.trans h

/-- A numeral is no image function. -/
theorem isImage_eq_false_of_afterNumber? {rest : Text} (h : afterNumber? t.chomp = some rest) :
    isImage t = false := by
  have hletters : ∀ name ∈ imageFunctions, name.head?.any Text.isAsciiLetter = true := by decide
  rw [← Bool.not_eq_true, isImage, isCall_iff]
  rintro ⟨name, hname, inner, -, ht⟩
  -- every image function begins with a letter, which no numeral does
  obtain ⟨c, hc, hletter⟩ := (Option.any_eq_true _ _).1 (hletters name hname)
  obtain ⟨more, rfl⟩ := List.head?_eq_some_iff.1 hc
  rw [ht, List.cons_append, List.cons_append, afterNumber?_cons_of_letter hletter] at h
  exact nomatch h

/-- On all but functions and a bare zero a numeric type goes by what stands behind the numeral. -/
theorem accepts_iff_suffix [ColorReader] (hzero : t ≠ ['0']) (hcall : ¬ IsNumericFunction t)
    {d : DataType} (hd : d ∈ numericTypes) :
    d.accepts t = true ↔ ∃ suffix ∈ numeralSuffixes d, afterNumber? t.chomp = some suffix := by
  rw [← isNumericCall_iff] at hcall
  simp only [numericTypes, List.mem_cons, List.not_mem_nil, or_false] at hd
  -- one case per numeric type, each by what its guard asks for
  rcases hd with rfl | rfl | rfl
  · rw [DataType.accepts, isNumber_iff, or_iff_right hcall]
    simp [numeralSuffixes]
  · rw [DataType.accepts, isPercentage_iff, or_iff_right hcall]
    simp [numeralSuffixes]
  · rw [DataType.accepts, isLength_iff, or_iff_right hzero, or_iff_right hcall, numeralSuffixes]

/-- No two numeric types accept the same numeral. -/
theorem eq_of_accepts [ColorReader] (hzero : t ≠ ['0']) (hcall : ¬ IsNumericFunction t)
    {d d' : DataType} (hd : d ∈ numericTypes) (hd' : d' ∈ numericTypes) (h : d.accepts t = true)
    (h' : d'.accepts t = true) : d = d' := by
  -- the suffixes of two numeric types have nothing in common, as their lists show
  have hapart : ∀ d ∈ numericTypes, ∀ d' ∈ numericTypes, ∀ suffix ∈ numeralSuffixes d,
      suffix ∈ numeralSuffixes d' → d = d' := by decide
  obtain ⟨suffix, hsuffix, hread⟩ := (accepts_iff_suffix hzero hcall hd).1 h
  obtain ⟨suffix', hsuffix', hread'⟩ := (accepts_iff_suffix hzero hcall hd').1 h'
  obtain rfl : suffix = suffix' := Option.some.inj (hread.symm.trans hread')
  exact hapart d hd d' hd' suffix hsuffix hsuffix'

/-- A numeral is inferred to be of the type that accepts it. -/
theorem infer?_of_accepts [ColorReader] (hzero : t ≠ ['0']) (hcall : ¬ IsNumericFunction t)
    {d : DataType} (hd : d ∈ numericTypes) (h : d.accepts t = true) :
    DataType.infer? t = some d := by
  obtain ⟨suffix, -, hread⟩ := (accepts_iff_suffix hzero hcall hd).1 h
  have hurl : DataType.url.accepts t = false := isUrl_eq_false_of_afterNumber? hread
  have himage : DataType.image.accepts t = false := isImage_eq_false_of_afterNumber? hread
  have hothers : ∀ d' ∈ numericTypes, d' ≠ d → d'.accepts t = false := by
    intro d' hd' hne
    rw [← Bool.not_eq_true]
    exact fun h' => hne (eq_of_accepts hzero hcall hd' hd h' h)
  -- addresses and images are tried before, and of the numeric types those that do not accept
  have hnumber := hothers .number (by decide)
  have hpercentage := hothers .percentage (by decide)
  simp only [numericTypes, List.mem_cons, List.not_mem_nil, or_false] at hd
  rcases hd with rfl | rfl | rfl
  · simp [DataType.infer?, DataType.inferenceOrder, hurl, himage, h]
  · simp [DataType.infer?, DataType.inferenceOrder, hurl, himage, hnumber, h]
  · simp [DataType.infer?, DataType.inferenceOrder, hurl, himage, hnumber, hpercentage, h]

/-! ## Guards -/

/-- The three guards accept the numeric functions and the numerals with nothing, a percent sign or a
    unit of length behind them; a length may be a bare zero, too.  On all else at most one of them
    accepts, and its type is the one that is inferred. -/
theorem numeric_guards [ColorReader] (t : Text) :
    (isNumber t = true ↔ IsNumericFunction t ∨ IsNumeralWith [] t) ∧
    (isPercentage t = true ↔ IsNumericFunction t ∨ IsNumeralWith ['%'] t) ∧
    (isLength t = true ↔
      t = ['0'] ∨ IsNumericFunction t ∨ ∃ u ∈ lengthUnits, IsNumeralWith u t) ∧
    (t ≠ ['0'] → ¬ IsNumericFunction t →
      (∀ d ∈ numericTypes, ∀ d' ∈ numericTypes, d.accepts t = true → d'.accepts t = true → d = d') ∧
      ∀ d ∈ numericTypes, d.accepts t = true → DataType.infer? t = some d) := by
  have hbare : EndsNumber [] := by decide
  have hpercent : EndsNumber ['%'] := by decide
  refine ⟨?_, ?_, ?_, ?_⟩
  · rw [isNumber_iff, isNumericCall_iff,
      afterNumber?_chomp_eq_some_iff hbare (List.forall_mem_nil _)]
  · rw [isPercentage_iff, isNumericCall_iff,
      afterNumber?_chomp_eq_some_iff hpercent (List.forall_mem_singleton.2 (by decide))]
  · have hunits : (∃ u ∈ lengthUnits, afterNumber? t.chomp = some u) ↔
        ∃ u ∈ lengthUnits, IsNumeralWith u t := by
      refine exists_congr fun u => and_congr_right fun hu => ?_
      exact afterNumber?_chomp_eq_some_iff (endsNumber_of_mem_lengthUnits hu)
        (nonblank_of_mem_lengthUnits hu)
    rw [isLength_iff, isNumericCall_iff, hunits]
  · intro hzero hcall
    refine ⟨?_, fun d hd => infer?_of_accepts hzero hcall hd⟩
    exact fun d hd d' hd' => eq_of_accepts hzero hcall hd hd'

/-- A unit that begins like an exponent stands behind an exponent, without a digit behind the point:
    it is a length and no number.  Digits of another script with a percent sign and a line feed are
    a percentage. -/
theorem numeric_guards_exponent_unit :
    let ex : Text := "-1.E+3ex"
    let arabic : Text := "٤٢%\n"
    (ex ≠ ['0'] ∧ ¬ IsNumericFunction ex ∧ (∃ u ∈ lengthUnits, IsNumeralWith u ex) ∧
      DataType.infer? ex = some .length ∧ isNumber ex = false) ∧
    arabic ≠ ['0'] ∧ ¬ IsNumericFunction arabic ∧ IsNumeralWith ['%'] arabic ∧
      DataType.infer? arabic = some .percentage := by
  intro ex arabic
  have hex : ¬ IsNumericFunction ex := by
    rw [← isNumericCall_iff]
    decide
  have harabic : ¬ IsNumericFunction arabic := by
    rw [← isNumericCall_iff]
    decide
  obtain ⟨-, -, hlength, hinfer⟩ := numeric_guards ex
  obtain ⟨hapart, hinfer⟩ := hinfer (by decide) hex
  obtain ⟨-, hpercentage, -, hinfer'⟩ := numeric_guards arabic
  obtain ⟨-, hinfer'⟩ := hinfer' (by decide) harabic
  have haccepts : isLength ex = true := by decide
  have haccepts' : isPercentage arabic = true := by decide
  refine ⟨⟨by decide, hex, ?_, hinfer .length (by decide) haccepts, ?_⟩, by decide, harabic,
    (hpercentage.1 haccepts').resolve_left harabic, hinfer' .percentage (by decide) haccepts'⟩
  · exact ((hlength.1 haccepts).resolve_left (by decide)).resolve_left hex
  · rw [← Bool.not_eq_true]
    intro hnumber
    exact nomatch hapart .number (by decide) .length (by decide) hnumber haccepts

end UtilityClass.Value
