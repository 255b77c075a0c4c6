import UtilityClass.Text.Blank
import UtilityClass.Text.Word

/-!
# Class attributes in markup

Class tokens are read from the string attributes `class` and `className` of a markup text: the
name, an equals sign, perhaps an opening brace, and a string in double or single quotes or grave
accents, with blanks anywhere between.  A name counts only where no word character and no dash
stands right before it.  Attributes do not overlap; the leftmost comes first.
-/

namespace UtilityClass.Markup

/-- Whether the character opens and closes the string of an attribute. -/
def isStringQuote (c : Char) : Bool := c == '"' || c == '\'' || c == '\x60'

/-- What follows the name of a class attribute at the front of the text. -/
def afterName? (t : Text) : Option Text :=
  (List.isPrefixOf? "class" t).map fun rest => (List.isPrefixOf? "Name" rest).getD rest

/-- What follows an equals sign, an optional opening brace, and the blanks around them. -/
def afterEquals? (t : Text) : Option Text :=
  match t.dropWhile Text.isBlank with
  | '=' :: rest =>
    match rest.dropWhile Text.isBlank with
    | [] => some []
    | c :: more => some (if c = '\x7b' then more.dropWhile Text.isBlank else c :: more)
  | _ => none

/-- The content of the string at the front of the text, and what follows its closing quote. -/
def string? : Text → Option (Text × Text)
  | [] => none
  | c :: rest => if isStringQuote c then Text.cut? [c] rest else none

/-- The content of the class attribute at the front of the text, and what follows it. -/
def attribute? (t : Text) : Option (Text × Text) :=
  ((afterName? t).bind afterEquals?).bind string?

/-- An attribute is not empty: what follows it is shorter than the text. -/
theorem length_lt_of_attribute? {t content after : Text}
    (h : attribute? t = some (content, after)) : after.length < t.length := by
  simp only [attribute?, Option.bind_eq_some_iff] at h
  obtain ⟨quoted, ⟨named, hname, hequals⟩, hstring⟩ := h
  -- The name takes at least five characters.
  have hnamed : named.length < t.length := by
    obtain ⟨rest, hrest, rfl⟩ := Option.map_eq_some_iff.1 hname
    have hclass := Text.length_of_isPrefixOf? hrest
    have hfive : "class".toList.length = 5 := rfl
    cases hcase : List.isPrefixOf? "Name".toList rest with
    | none =>
      rw [Option.getD_none]
      omega
    | some more =>
      have hmore := Text.length_of_isPrefixOf? hcase
      rw [Option.getD_some]
      omega
  have hdrop (u : Text) : (u.dropWhile Text.isBlank).length ≤ u.length :=
    (List.dropWhile_sublist _).length_le
  -- Blanks, the equals sign and the brace leave no more than there was.
  have hquoted : quoted.length ≤ named.length := by
    have h1 := hdrop named
    simp only [afterEquals?] at hequals
    split at hequals
    · next rest hrest =>
      have h2 := hdrop rest
      rw [hrest] at h1
      simp only [List.length_cons] at h1
      split at hequals
      · simp only [Option.some.injEq] at hequals
        simp [← hequals]
      · next c more hmore =>
        have h3 := hdrop more
        rw [hmore] at h2
        simp only [List.length_cons] at h2
        split at hequals <;> simp only [Option.some.injEq] at hequals <;> subst hequals
        · omega
        · simp
          omega
    · simp at hequals
  -- Neither does the string.
  have hafter : after.length ≤ quoted.length := by
    cases quoted with
    | nil => simp [string?] at hstring
    | cons c rest =>
      simp only [string?] at hstring
      split at hstring
      · exact Nat.le_succ_of_le (Text.length_le_of_cut? hstring)
      · simp at hstring
  omega

/-- Whether an attribute name may follow the character. -/
def endsWord (c : Char) : Bool := !(Text.isWordChar c || c == '-')

/-- The contents of the class attributes of a text, left to right; `fresh` says whether a name may
stand at the front. -/
def contents (fresh : Bool) (t : Text) : List Text :=
  match _h : if fresh then attribute? t else none with
  | some (content, after) => content :: contents true after
  | none =>
    match t with
    | [] => []
    | c :: rest => contents (endsWord c) rest
termination_by t.length
decreasing_by
  · split at _h
    · exact length_lt_of_attribute? _h
    · simp at _h
  · simp

/-- The class tokens of a markup text, each once, in the order in which they first occur. -/
def tokens (t : Text) : List Text := ((contents true t).flatMap Text.words).eraseDups

end UtilityClass.Markup
