import UtilityClass.Proofs.Text.Words
import UtilityClass.Proofs.Value.Arithmetic
import UtilityClass.Proofs.Value.Number
import UtilityClass.Value.DataType

/-!
# Positions and shadows by their components

Positions and shadows are cut at blanks, and shadows at commas before that, without regard to
parentheses.  So they can be put together from components in one piece, and from others only where
each piece of such a component could be a component itself.

## Key results

- `words_of_isPositionPart`: a component in one piece is a single word that is a component too
- `isPosition_intercalate_iff`: when components make a position
- `isShadow_intercalate_iff`: shadows between commas are judged one by one
- `isShadow_of_whole`: components in one piece make a shadow if two of them are lengths
- `isShadow_eq_false_of_field`: a function with a field between commas is in no shadow
- `isPosition_isShadow_intercalate`: the two lists together
-/

namespace UtilityClass.Value

/-- A component of a position: a keyword, a length or a percentage. -/
def isPositionPart (t : Text) : Bool :=
  positionKeywords.contains t || isLength t || isPercentage t

/-- Whether a text is in one piece: no blank is in it, a line feed at its end apart. -/
def isWhole (t : Text) : Bool := t.chomp.all (! Text.isBlank ·)

variable {t : Text}

/-- A text is in one piece if none of its characters is a blank, up to a line feed at its end. -/
theorem isWhole_iff : isWhole t = true ↔ ∀ c ∈ t.chomp, Text.isBlank c = false := by
  simp [isWhole]

/-- A text in one piece is its only word. -/
theorem words_of_isWhole (hne : t.chomp ≠ []) (h : isWhole t = true) :
    Text.words t = [t.chomp] := by
  rw [isWhole_iff] at h
  -- a line feed at the end is a blank, which makes no word and ends the last one
  rcases Text.eq_chomp_or t with hfeed | ⟨-, hself⟩
  · calc Text.words t = Text.words t.chomp := by
          conv => lhs; rw [hfeed]
          exact Text.words_concat (by decide) _
      _ = [t.chomp] := Text.words_of_nonblank hne h
  · conv => lhs; rw [← hself]
    exact Text.words_of_nonblank hne h

/-- A text in one piece has no second line feed to lose. -/
theorem chomp_of_isWhole (h : isWhole t = true) : t.chomp.chomp = t.chomp := by
  apply Text.chomp_of_getLast?_ne
  intro hlast
  have hfeed := isWhole_iff.1 h '\n' (List.mem_of_getLast? hlast)
  exact absurd hfeed (by decide)

/-! ## Components in one piece -/

/-- A number and a word without blanks behind it are in one piece. -/
theorem isWhole_of_afterNumber? {tail : Text} (hnumber : afterNumber? t.chomp = some tail)
    (htail : ∀ c ∈ tail, Text.isBlank c = false) : isWhole t = true := by
  obtain ⟨n, hplain, ht⟩ := exists_of_afterNumber? hnumber
  rw [isWhole_iff, ht]
  exact List.forall_mem_append.2 ⟨n.nonblank hplain, htail⟩

/-- No unit of a length has a blank. -/
theorem nonblank_of_mem_lengthUnits {u : Text} (h : u ∈ lengthUnits) :
    ∀ c ∈ u, Text.isBlank c = false := by
  have hall : ∀ u ∈ lengthUnits, u.all (! Text.isBlank ·) = true := by decide
  simpa using hall u h

/-- What stands behind a number is judged without regard to a final line feed. -/
theorem any_afterNumber?_chomp (p : Text → Bool) :
    ((afterNumber? t).any fun rest => p rest.chomp) = true ↔
      ∃ rest, afterNumber? t.chomp = some rest ∧ p rest = true := by
  have hmap : (afterNumber? t).any (fun rest => p rest.chomp) = (afterNumber? t.chomp).any p := by
    rw [← afterNumber?_chomp, Option.any_map]
  rw [hmap, Option.any_eq_true]

/-- The lengths: zero, the numeric functions, and the numbers with a unit of length. -/
theorem isLength_iff :
    isLength t = true ↔ t = ['0'] ∨ isNumericCall t = true ∨
      ∃ u ∈ lengthUnits, afterNumber? t.chomp = some u := by
  rw [isLength, Bool.or_eq_true, Bool.or_eq_true, beq_iff_eq, or_assoc,
    any_afterNumber?_chomp lengthUnits.contains]
  simp only [List.contains_iff_mem, and_comm]

/-- The percentages: the numeric functions, and the numbers with a percent sign. -/
theorem isPercentage_iff :
    isPercentage t = true ↔ isNumericCall t = true ∨ afterNumber? t.chomp = some ['%'] := by
  rw [isPercentage, Bool.or_eq_true, or_comm, any_afterNumber?_chomp (fun rest => rest = ['%'])]
  simp

/-- A numeric function in one piece is one without a final line feed, too. -/
theorem isNumericCall_chomp (h : isWhole t = true) : isNumericCall t.chomp = isNumericCall t := by
  rw [isNumericCall, isNumericCall, isCall, isCall, chomp_of_isWhole h]

/-- A length in one piece is one without a final line feed, too. -/
theorem isLength_chomp (h : isLength t = true) (hwhole : isWhole t = true) :
    isLength t.chomp = true := by
  rw [isLength_iff] at h ⊢
  rw [isNumericCall_chomp hwhole, chomp_of_isWhole hwhole]
  rcases h with rfl | h
  · exact .inl rfl
  · exact .inr h

/-- The components of positions: keywords, lengths and percentages. -/
theorem isPositionPart_iff :
    isPositionPart t = true ↔
      t ∈ positionKeywords ∨ isLength t = true ∨ isPercentage t = true := by
  rw [isPositionPart, Bool.or_eq_true, Bool.or_eq_true, List.contains_iff_mem, or_assoc]

/-- A component in one piece is one without a final line feed, too. -/
theorem isPositionPart_chomp (h : isPositionPart t = true) (hwhole : isWhole t = true) :
    isPositionPart t.chomp = true := by
  have hkeywords : ∀ w ∈ positionKeywords, w.chomp = w := by decide
  rw [isPositionPart_iff] at h ⊢
  -- a keyword has no line feed, and numbers and functions are read without it in any case
  rcases h with hkeyword | hlength | hpercentage
  · rw [hkeywords t hkeyword]
    exact .inl hkeyword
  · exact .inr (.inl (isLength_chomp hlength hwhole))
  · rw [isPercentage_iff] at hpercentage ⊢
    rw [isNumericCall_chomp hwhole, chomp_of_isWhole hwhole]
    exact .inr (.inr hpercentage)

/-- A text in one piece is its only word if it is accepted where the empty text is not. -/
theorem words_of_accepted {guard : Text → Bool} (hnil : guard [] = false)
    (h : guard t.chomp = true) (hwhole : isWhole t = true) : Text.words t = [t.chomp] := by
  apply words_of_isWhole _ hwhole
  intro heq
  rw [heq, hnil] at h
  exact Bool.false_ne_true h

/-- A length in one piece is a single word that is a length. -/
theorem words_of_isLength (h : isLength t = true) (hwhole : isWhole t = true) :
    Text.words t = [t.chomp] ∧ isLength t.chomp = true :=
  have hchomp := isLength_chomp h hwhole
  ⟨words_of_accepted (by decide) hchomp hwhole, hchomp⟩

/-- A component in one piece is a single word that is a component too. -/
theorem words_of_isPositionPart (h : isPositionPart t = true) (hwhole : isWhole t = true) :
    Text.words t = [t.chomp] ∧ isPositionPart t.chomp = true :=
  have hchomp := isPositionPart_chomp h hwhole
  ⟨words_of_accepted (by decide) hchomp hwhole, hchomp⟩

/-- Only a numeric function can be a component that is not in one piece. -/
theorem isNumericCall_of_not_whole (h : isPositionPart t = true) (hwhole : isWhole t = false) :
    isNumericCall t = true := by
  have hkeywords : ∀ w ∈ positionKeywords, isWhole w = true := by decide
  by_contra hcall
  apply Bool.false_ne_true
  rw [← hwhole]
  rw [isPositionPart_iff, isLength_iff, isPercentage_iff] at h
  simp only [hcall, false_or] at h
  -- everything but a function is a keyword or a number with a word behind it, and these are in one
  -- piece
  rcases h with hkeyword | (rfl | ⟨u, hu, hnumber⟩) | hnumber
  · exact hkeywords t hkeyword
  · decide
  · exact isWhole_of_afterNumber? hnumber (nonblank_of_mem_lengthUnits hu)
  · exact isWhole_of_afterNumber? hnumber (List.forall_mem_singleton.2 (by decide))

/-- Every component has a word. -/
theorem words_ne_nil_of_isPositionPart (h : isPositionPart t = true) : Text.words t ≠ [] := by
  cases hwhole : isWhole t with
  | true => rw [(words_of_isPositionPart h hwhole).1]; exact List.cons_ne_nil _ _
  | false =>
    -- there is the parenthesis that a function opens
    have hcall := isNumericCall_of_not_whole h hwhole
    simp only [isNumericCall, isCall, List.any_eq_true, Option.any_eq_true] at hcall
    obtain ⟨name, -, inner, hinner, -⟩ := hcall
    rw [Text.enclosed?_eq_some_iff] at hinner
    have hopen : '(' ∈ t.chomp := by simp [hinner]
    exact Text.words_ne_nil ((Text.chomp_prefix t).mem hopen) (by decide)

/-! ## Positions -/

/-- A text is a position if it has words and all of them are components. -/
theorem isPosition_iff :
    isPosition t = true ↔ Text.words t ≠ [] ∧ ∀ w ∈ Text.words t, isPositionPart w = true := by
  rw [isPosition, Bool.and_eq_true, List.all_eq_true]
  simp [isPositionPart]

/-- Components with spaces between them make a position exactly if each piece of a component that
    is not in one piece could be a component itself. -/
theorem isPosition_intercalate_iff {components : List Text} (hne : components ≠ [])
    (h : ∀ c ∈ components, isPositionPart c = true) :
    isPosition ([' '].intercalate components) = true ↔
      ∀ c ∈ components, isWhole c = false → ∀ w ∈ Text.words c, isPositionPart w = true := by
  obtain ⟨first, hfirst⟩ := List.exists_mem_of_ne_nil components hne
  have hwords : components.flatMap Text.words ≠ [] := by
    intro hnil
    exact words_ne_nil_of_isPositionPart (h first hfirst)
      (List.flatMap_eq_nil_iff.1 hnil first hfirst)
  rw [isPosition_iff, Text.words_intercalate]
  constructor
  · intro hposition c hc _ w hw
    exact hposition.2 w (List.mem_flatMap.2 ⟨c, hc, hw⟩)
  · intro hpieces
    refine ⟨hwords, ?_⟩
    intro w hw
    obtain ⟨c, hc, hw⟩ := List.mem_flatMap.1 hw
    -- the words of a component in one piece are known, and only the others are asked for
    cases hwhole : isWhole c with
    | true =>
      obtain ⟨hword, hpart⟩ := words_of_isPositionPart (h c hc) hwhole
      rw [hword, List.mem_singleton] at hw
      exact hw ▸ hpart
    | false => exact hpieces c hc hwhole w hw

/-- An operator with a space on either side is a word that is no component. -/
theorem isPosition_eq_false_of_operator {op : Char} (hop : op ∈ operators)
    (h : [' ', op, ' '] <:+: t) : isPosition t = false := by
  have hall :
      operators.all (fun op => ! isPositionPart [op] && Text.words [op] == [[op]]) = true := by
    decide
  obtain ⟨hpart, hword⟩ : isPositionPart [op] = false ∧ Text.words [op] = [[op]] := by
    simpa using List.all_eq_true.1 hall op hop
  rw [← Bool.not_eq_true, isPosition_iff]
  intro hposition
  -- the operator with its spaces is a word of the whole
  have hmem : [op] ∈ Text.words t := Text.mem_words_of_infix (by decide) (by decide) hword h
  rw [hposition.2 [op] hmem] at hpart
  exact nomatch hpart

/-! ## Shadows -/

/-- How many of the words of a text are lengths. -/
def lengthsIn (t : Text) : Nat := (Text.words t).countP isLength

/-- A blank in front of a text is no part of a word. -/
theorem lengthsIn_cons_blank {b : Char} (hb : Text.isBlank b = true) (t : Text) :
    lengthsIn (b :: t) = lengthsIn t := by
  rw [lengthsIn, Text.words_cons hb, lengthsIn]

/-- A length in one piece is counted once. -/
theorem lengthsIn_of_isLength (h : isLength t = true) (hwhole : isWhole t = true) :
    lengthsIn t = 1 := by
  obtain ⟨hwords, hlength⟩ := words_of_isLength h hwhole
  rw [lengthsIn, hwords, List.countP_singleton, if_pos hlength]

/-- Lengths in one piece are all counted. -/
theorem countP_isLength_le {components : List Text}
    (h : ∀ c ∈ components, isLength c = true → isWhole c = true) :
    components.countP isLength ≤ lengthsIn ([' '].intercalate components) := by
  rw [lengthsIn, Text.words_intercalate]
  induction components with
  | nil => exact Nat.le_refl 0
  | cons c more ih =>
    obtain ⟨hfirst, hmore⟩ := List.forall_mem_cons.1 h
    have hrest := ih hmore
    rw [List.countP_cons, List.flatMap_cons, List.countP_append, ← lengthsIn]
    -- a component that is a length adds one to both counts, and another one may only add to the
    -- words
    split
    · next hlength =>
      rw [lengthsIn_of_isLength hlength (hfirst hlength)]
      omega
    · omega

/-- The word for an inner shadow is no length, so that it need not be left out. -/
theorem isShadow_iff : isShadow t = true ↔ ∀ s ∈ t.splitOn ',', 2 ≤ lengthsIn s := by
  have hinset (w : Text) : (w != "inset".toList && isLength w) = isLength w := by
    by_cases hw : w = "inset".toList
    · rw [hw]
      decide
    · rw [bne_iff_ne.2 hw, Bool.true_and]
  simp only [isShadow, List.all_eq_true, decide_eq_true_eq, hinset, lengthsIn,
    List.countP_eq_length_filter]

/-- At a comma a shadow is cut, and both sides are judged. -/
theorem isShadow_append_comma (t u : Text) :
    isShadow (t ++ ',' :: u) = (isShadow t && isShadow u) := by
  rw [isShadow, List.splitOn_append_cons_self, List.all_append]
  rfl

/-- A blank in front of a shadow does not matter. -/
theorem isShadow_cons_blank {b : Char} (hb : Text.isBlank b = true) (t : Text) :
    isShadow (b :: t) = isShadow t := by
  -- the blank goes to the first part, whose words it does not change
  obtain ⟨first, more, hparts⟩ := List.exists_cons_of_ne_nil (List.splitOn_ne_nil ',' t)
  have hcomma : (b == ',') = false := by
    rw [beq_eq_false_iff_ne]
    rintro rfl
    exact absurd hb (by decide)
  rw [Bool.eq_iff_iff, isShadow_iff, isShadow_iff, List.splitOn_cons_eq_if_modifyHead, hcomma,
    hparts]
  simp [lengthsIn_cons_blank hb]

/-- Shadows with a comma and a space between them are judged one by one. -/
theorem isShadow_intercalate_iff {shadows : List Text} (hne : shadows ≠ []) :
    isShadow (", ".toList.intercalate shadows) = true ↔ ∀ s ∈ shadows, isShadow s = true := by
  induction shadows with
  | nil => exact absurd rfl hne
  | cons s more ih =>
    cases more with
    | nil => simp
    | cons s' rest =>
      have hparts : ", ".toList.intercalate (s :: s' :: rest) =
          s ++ ',' :: ' ' :: ", ".toList.intercalate (s' :: rest) := by
        rw [List.intercalate_cons_cons]
        simp
      -- one comma is cut off; the blank behind it is no part of a shadow
      rw [hparts, isShadow_append_comma, isShadow_cons_blank (by decide), Bool.and_eq_true,
        ih (List.cons_ne_nil _ _), List.forall_mem_cons (a := s)]

/-- Components without commas and in one piece make a shadow if two of them are lengths. -/
theorem isShadow_of_whole {components : List Text} (hlengths : 2 ≤ components.countP isLength)
    (h : ∀ c ∈ components, ',' ∉ c ∧ (isLength c = true → isWhole c = true)) :
    isShadow ([' '].intercalate components) = true := by
  -- no comma cuts the components, so their lengths are counted together
  have hcomma : ',' ∉ [' '].intercalate components := by
    intro hmem
    rcases Text.mem_intercalate hmem with hspace | ⟨c, hc, hcomma⟩
    · exact absurd hspace (by decide)
    · exact (h c hc).1 hcomma
  have hcount := countP_isLength_le fun c hc => (h c hc).2
  rw [isShadow_iff, List.splitOn_eq_singleton hcomma, List.forall_mem_singleton]
  omega

/-- A field between two commas, without a blank, is at most one word, and so it is no shadow with
    two lengths. -/
theorem isShadow_eq_false_of_field {field : Text}
    (hfield : ∀ d ∈ field, Text.isBlank d = false ∧ d ≠ ',') (h : ',' :: (field ++ [',']) <:+: t) :
    isShadow t = false := by
  obtain ⟨front, rest, rfl⟩ := h
  have hparts : front ++ (',' :: (field ++ [','])) ++ rest =
      front ++ ',' :: (field ++ ',' :: rest) := by simp
  have hwords : (Text.words field).length ≤ 1 := by
    by_cases hne : field = []
    · rw [hne, Text.words_nil]
      exact Nat.zero_le 1
    · rw [Text.words_of_nonblank hne fun d hd => (hfield d hd).1]
      exact Nat.le_refl 1
  -- the commas on both sides make the field a shadow of its own
  have hnone : isShadow field = false := by
    rw [← Bool.not_eq_true, isShadow_iff,
      List.splitOn_eq_singleton fun hmem => (hfield ',' hmem).2 rfl, List.forall_mem_singleton]
    have hcount : lengthsIn field ≤ (Text.words field).length := List.countP_le_length
    omega
  rw [hparts, isShadow_append_comma, isShadow_append_comma, hnone, Bool.false_and, Bool.and_false]

/-! ## Lists of components -/

/-- Components with spaces between them make a position exactly if each piece of a component that is
    not in one piece could be a component itself; an operator between spaces never could.  Shadows
    with a comma and a space between them, each with two lengths among its components, are accepted
    exactly if two words are lengths wherever commas cut them; so they are if no component has a
    comma and the lengths are in one piece, and never with a field between two commas. -/
theorem isPosition_isShadow_intercalate (components : List Text) (shadows : List (List Text)) :
    (components ≠ [] → (∀ c ∈ components, isPositionPart c = true) →
      (isPosition ([' '].intercalate components) = true ↔
        ∀ c ∈ components, isWhole c = false → ∀ w ∈ Text.words c, isPositionPart w = true) ∧
      ∀ c ∈ components, ∀ op ∈ operators, [' ', op, ' '] <:+: c →
        isPosition ([' '].intercalate components) = false) ∧
    (shadows ≠ [] → (∀ s ∈ shadows, 2 ≤ s.countP isLength) →
      let joined := ", ".toList.intercalate (shadows.map fun s => [' '].intercalate s)
      (isShadow joined = true ↔
        ∀ s ∈ shadows, ∀ part ∈ ([' '].intercalate s).splitOn ',', 2 ≤ lengthsIn part) ∧
      ((∀ s ∈ shadows, ∀ c ∈ s, ',' ∉ c ∧ (isLength c = true → isWhole c = true)) →
        isShadow joined = true) ∧
      ∀ s ∈ shadows, ∀ c ∈ s, ∀ field : Text, (∀ d ∈ field, Text.isBlank d = false ∧ d ≠ ',') →
        ',' :: (field ++ [',']) <:+: c → isShadow joined = false) := by
  constructor
  -- for positions
  · intro hne h
    refine ⟨isPosition_intercalate_iff hne h, ?_⟩
    intro c hc op hop hwithin
    exact isPosition_eq_false_of_operator hop (hwithin.trans (Text.infix_intercalate hc))
  -- for shadows, each of which is judged for itself
  · intro hne hlengths joined
    have hjoined : isShadow joined = true ↔
        ∀ s ∈ shadows, isShadow ([' '].intercalate s) = true := by
      rw [isShadow_intercalate_iff (by simpa using hne), List.forall_mem_map]
    refine ⟨?_, ?_, ?_⟩
    · rw [hjoined]
      simp only [isShadow_iff]
    · intro h
      exact hjoined.2 fun s hs => isShadow_of_whole (hlengths s hs) (h s hs)
    · intro s hs c hc field hfield hwithin
      have hnone : isShadow ([' '].intercalate s) = false :=
        isShadow_eq_false_of_field hfield (hwithin.trans (Text.infix_intercalate hc))
      rw [← Bool.not_eq_true, hjoined]
      intro hall
      rw [hall s hs] at hnone
      exact nomatch hnone

/-- A function in one piece may be in a position, and one with spaces between its arguments in a
    shadow; but a sum with spaces around its sign is in no position, and a colour with commas in no
    shadow. -/
theorem isPosition_isShadow_intercalate_functions :
    let whole : List Text := ["center", "calc(1px+2px)", "50%"]
    let spaced : List Text := ["calc(100% - 10px)", "top"]
    let flat : List (List Text) := [["0", "1px", "rgb(0 0 0 / 50%)"], ["inset", "0", "2px", "red"]]
    let colored : List (List Text) := [["0", "1px", "rgba(0,0,0,0.5)"]]
    (∀ c ∈ whole ++ spaced, isPositionPart c = true) ∧
    isPosition ([' '].intercalate whole) = true ∧ isPosition ([' '].intercalate spaced) = false ∧
    (∀ s ∈ flat ++ colored, 2 ≤ s.countP isLength) ∧
    isShadow (", ".toList.intercalate (flat.map fun s => [' '].intercalate s)) = true ∧
    isShadow (", ".toList.intercalate (colored.map fun s => [' '].intercalate s)) = false := by
  intro whole spaced flat colored
  -- what is accepted, then what is not
  obtain ⟨hposition, hshadow⟩ := isPosition_isShadow_intercalate whole flat
  obtain ⟨hwhole, -⟩ := hposition (by decide) (by decide)
  obtain ⟨-, hflat, -⟩ := hshadow (by decide) (by decide)
  obtain ⟨hposition', hshadow'⟩ := isPosition_isShadow_intercalate spaced colored
  obtain ⟨-, hspaced⟩ := hposition' (by decide) (by decide)
  obtain ⟨-, -, hcolored⟩ := hshadow' (by decide) (by decide)
  refine ⟨by decide, hwhole.2 (by decide), ?_, by decide, hflat (by decide), ?_⟩
  · exact hspaced "calc(100% - 10px)" (by decide) '-' (by decide) (by decide)
  · exact hcolored _ List.mem_cons_self "rgba(0,0,0,0.5)" (by decide) ['0']
      (List.forall_mem_singleton.2 (by decide)) (by decide)

end UtilityClass.Value
