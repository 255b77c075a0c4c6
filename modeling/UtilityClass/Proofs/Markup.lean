import UtilityClass.Markup
import UtilityClass.Proofs.Text.Cut
import UtilityClass.Proofs.Text.Digit

/-!
# Reading written markup

A markup is written as class attributes with gaps between them, where no gap holds the name of an
attribute.  Reading it gives the contents of the attributes and nothing else: the gaps are passed
over character by character, an attribute is taken as a whole, and behind its closing quote a name
may follow again.

## Key results

- `contents_gap`: a gap is passed over
- `attribute?_text`: an attribute is read back
- `contents_closing_write`: the contents of the attributes are read, in order
- `tokens_write`: so are the words of the contents, each once
-/

namespace UtilityClass.Markup

/-- The beginning of the name of every class attribute. -/
def nameLead : Text := "class"

/-! ## Written attributes -/

/-- The name of a class attribute. -/
inductive Name where
  | short
  | long
  deriving DecidableEq, Repr

/-- What the name has behind its beginning. -/
def Name.ending : Name → Text
  | short => []
  | long => "Name"

/-- A class attribute as it is written. -/
structure Attribute where
  name : Name
  beforeEquals : Text
  afterEquals : Text
  /-- The blanks behind the opening brace, if the string stands in braces. -/
  brace : Option Text
  quote : Char
  content : Text
  beforeEquals_blank : ∀ c ∈ beforeEquals, Text.isBlank c = true
  afterEquals_blank : ∀ c ∈ afterEquals, Text.isBlank c = true
  brace_blank : ∀ blanks ∈ brace, ∀ c ∈ blanks, Text.isBlank c = true
  isStringQuote_quote : isStringQuote quote = true
  quote_not_mem : quote ∉ content

namespace Attribute

/-- The string of an attribute, in its quotes. -/
def string (a : Attribute) : Text := a.quote :: a.content ++ [a.quote]

/-- What an attribute has in front of its string, behind the equals sign. -/
def opening (a : Attribute) : Text :=
  a.afterEquals ++ a.brace.elim [] fun blanks => '\x7b' :: blanks

/-- What an attribute has behind its string. -/
def closing (a : Attribute) : Text := a.brace.elim [] fun _ => ['\x7d']

/-- An attribute as text. -/
def text (a : Attribute) : Text :=
  nameLead ++ a.name.ending ++ a.beforeEquals ++ '=' :: a.opening ++ a.string ++ a.closing

end Attribute

/-- A gap in front of an attribute: no attribute name begins in it, and it ends in a blank unless it
    is empty. -/
structure IsGap (gap : Text) : Prop where
  nameless : ¬ nameLead <:+: gap
  endsBlank : ∀ c ∈ gap.getLast?, Text.isBlank c = true

/-- Attributes, each behind a gap, and a text behind the last one. -/
def write : List (Text × Attribute) → Text → Text
  | [], last => last
  | (gap, a) :: more, last => gap ++ a.text ++ write more last

/-! ## Gaps -/

variable {t gap rest : Text}

/-- No attribute begins where its name does not. -/
theorem attribute?_eq_none (h : ¬ nameLead <+: t) : attribute? t = none := by
  have hname : afterName? t = none := by
    rw [afterName?, (Text.isPrefixOf?_eq_none_iff "class".toList t).2 h]
    rfl
  rw [attribute?, hname]
  rfl

/-- A character at which no attribute begins is passed over. -/
theorem contents_cons (fresh : Bool) {c : Char} (h : ¬ nameLead <+: c :: rest) :
    contents fresh (c :: rest) = contents (endsWord c) rest := by
  rw [contents]
  split
  · next content after heq =>
    rw [attribute?_eq_none h] at heq
    cases fresh <;> cases heq
  · rfl

/-- An attribute is taken where a name may stand. -/
theorem contents_attribute {content after : Text} (h : attribute? t = some (content, after)) :
    contents true t = content :: contents true after := by
  rw [contents]
  split
  · next content' after' heq =>
    rw [if_pos rfl, h] at heq
    obtain ⟨rfl, rfl⟩ := Prod.mk.inj (Option.some.inj heq)
    rfl
  · next heq =>
    rw [if_pos rfl, h] at heq
    cases heq

/-- A gap is passed over; whether a name may stand behind it goes by its last character. -/
theorem contents_gap (fresh : Bool) (h : ∀ i < gap.length, ¬ nameLead <+: (gap ++ rest).drop i) :
    contents fresh (gap ++ rest) = contents ((gap.getLast?.map endsWord).getD fresh) rest := by
  -- character by character; each decides whether a name may stand behind it
  induction gap generalizing fresh with
  | nil => rfl
  | cons c more ih =>
    have hfirst : ¬ nameLead <+: c :: (more ++ rest) := h 0 (by simp)
    rw [List.cons_append, contents_cons fresh hfirst,
      ih (endsWord c) fun i hi => h (i + 1) (by simpa using hi)]
    cases more with
    | nil => rfl
    | cons d others => rw [List.getLast?_cons_cons]; rfl

/-- There is nothing to read without an attribute name. -/
theorem contents_eq_nil (fresh : Bool) (h : ¬ nameLead <:+: t) : contents fresh t = [] := by
  have hpassed : ∀ i < t.length, ¬ nameLead <+: (t ++ []).drop i := by
    intro i _ hfront
    rw [List.append_nil] at hfront
    exact h (hfront.isInfix.trans (List.drop_suffix i t).isInfix)
  have hskip := contents_gap fresh hpassed
  rw [List.append_nil] at hskip
  -- behind all characters there is nothing, and no attribute begins
  rw [hskip, contents]
  split
  · next heq =>
    rw [attribute?_eq_none (by decide)] at heq
    split at heq <;> cases heq
  · rfl

/-- No name begins in a gap and goes on behind it, since a name has no character that ends a
    word. -/
theorem not_prefix_of_gap (hname : ¬ nameLead <:+: gap)
    (hend : ∀ c ∈ gap.getLast?, endsWord c = true) {i : Nat} (hi : i < gap.length) :
    ¬ nameLead <+: (gap ++ rest).drop i := by
  intro hfront
  -- a name that begins in the gap ends in it, or all that is left of the gap is part of the name
  rw [List.drop_append_of_le_length (Nat.le_of_lt hi)] at hfront
  rcases List.prefix_or_prefix_of_prefix hfront (List.prefix_append _ rest) with hin | hcut
  · exact hname (hin.isInfix.trans (List.drop_suffix i gap).isInfix)
  · -- the last character of the gap would be one of the name
    obtain rfl | ⟨front, c, rfl⟩ := List.eq_nil_or_concat' gap
    · exact absurd hi (Nat.not_lt_zero i)
    · have hle : i ≤ front.length := by
        rw [List.length_append, List.length_singleton] at hi
        omega
      rw [List.drop_append_of_le_length hle] at hcut
      have hletters : ∀ c ∈ nameLead, Text.isAsciiLetter c = true :=
        List.all_eq_true.1 (by decide)
      have hword := Text.isWordChar_of_isAsciiLetter (hletters c (hcut.subset (by simp)))
      have hends := hend c (by simp)
      rw [endsWord, hword] at hends
      exact nomatch hends

/-! ## Attributes -/

/-- Blanks are left out up to a character that is none. -/
theorem dropWhile_append_of_blank {blanks : Text} {c : Char}
    (hblank : ∀ c ∈ blanks, Text.isBlank c = true) (hc : Text.isBlank c = false) :
    (blanks ++ c :: rest).dropWhile Text.isBlank = c :: rest := by
  rw [List.dropWhile_append_of_pos hblank,
    List.dropWhile_cons_of_neg (by rw [hc]; exact Bool.false_ne_true)]

/-- A quote is neither a blank nor a brace. -/
theorem isBlank_of_isStringQuote {c : Char} (h : isStringQuote c = true) :
    Text.isBlank c = false ∧ c ≠ '\x7b' := by
  simp only [isStringQuote, Bool.or_eq_true, beq_iff_eq] at h
  rcases h with (rfl | rfl) | rfl <;> decide

namespace Attribute

variable (a : Attribute)

/-- The name of an attribute is read up to the blanks behind it. -/
theorem afterName?_text (rest : Text) :
    afterName? (nameLead ++ a.name.ending ++ (a.beforeEquals ++ '=' :: rest)) =
      some (a.beforeEquals ++ '=' :: rest) := by
  have hlead : List.isPrefixOf? "class".toList
      (nameLead ++ a.name.ending ++ (a.beforeEquals ++ '=' :: rest)) =
        some (a.name.ending ++ (a.beforeEquals ++ '=' :: rest)) := by
    rw [Text.isPrefixOf?_eq_some_iff, List.append_assoc]
    rfl
  -- the longer name is tried first
  rw [afterName?, hlead, Option.map_some]
  cases a.name with
  | short =>
    -- what follows is no longer name, since it begins with a blank or the equals sign
    have hshort : List.isPrefixOf? "Name".toList (a.beforeEquals ++ '=' :: rest) = none := by
      rw [Text.isPrefixOf?_eq_none_iff]
      rintro ⟨behind, hbehind⟩
      cases hblanks : a.beforeEquals with
      | nil => simp [hblanks] at hbehind
      | cons b more =>
        have hb := a.beforeEquals_blank b (by rw [hblanks]; exact List.mem_cons_self)
        rw [hblanks] at hbehind
        obtain ⟨rfl, -⟩ : 'N' = b ∧ _ := by simpa using hbehind
        exact absurd hb (by decide)
    rw [Name.ending, List.nil_append, hshort, Option.getD_none]
  | long =>
    have hlong : List.isPrefixOf? "Name".toList
        (Name.long.ending ++ (a.beforeEquals ++ '=' :: rest)) =
          some (a.beforeEquals ++ '=' :: rest) := by
      rw [Text.isPrefixOf?_eq_some_iff]
      rfl
    rw [hlong, Option.getD_some]

/-- The equals sign and the brace are read up to the opening quote. -/
theorem afterEquals?_text (rest : Text) :
    afterEquals? (a.beforeEquals ++ '=' :: (a.opening ++ a.quote :: rest)) =
      some (a.quote :: rest) := by
  obtain ⟨hquote, hne⟩ := isBlank_of_isStringQuote a.isStringQuote_quote
  rw [afterEquals?, dropWhile_append_of_blank a.beforeEquals_blank (by decide)]
  split
  · next after heq =>
    obtain rfl : a.opening ++ a.quote :: rest = after := (List.cons.inj heq).2
    -- a string in braces has blanks behind the brace, and one without braces follows right away
    rw [opening]
    cases hbrace : a.brace with
    | none =>
      rw [Option.elim_none, List.append_nil, dropWhile_append_of_blank a.afterEquals_blank hquote]
      exact congrArg some (if_neg hne)
    | some blanks =>
      rw [Option.elim_some, List.append_assoc, List.cons_append,
        dropWhile_append_of_blank a.afterEquals_blank (by decide)]
      exact congrArg some ((if_pos rfl).trans
        (dropWhile_append_of_blank (a.brace_blank blanks hbrace) hquote))
  · next hnone => exact absurd rfl (hnone _)

/-- The string is read up to its closing quote. -/
theorem string?_string (rest : Text) : string? (a.string ++ rest) = some (a.content, rest) := by
  have hstring : a.string ++ rest = a.quote :: (a.content ++ a.quote :: rest) := by
    simp [string]
  rw [hstring, string?, if_pos a.isStringQuote_quote, Text.cut?_singleton_iff]
  exact ⟨rfl, a.quote_not_mem⟩

/-- An attribute is read back. -/
theorem attribute?_text (rest : Text) :
    attribute? (a.text ++ rest) = some (a.content, a.closing ++ rest) := by
  have htext : a.text ++ rest = nameLead ++ a.name.ending ++
      (a.beforeEquals ++ '=' :: (a.opening ++ a.quote ::
        (a.content ++ a.quote :: (a.closing ++ rest)))) := by
    simp [text, string]
  have hstring := a.string?_string (a.closing ++ rest)
  rw [string] at hstring
  -- part by part, each read as far as it was written
  rw [attribute?, htext, a.afterName?_text, Option.bind_some, a.afterEquals?_text, Option.bind_some]
  simpa using hstring

end Attribute

/-! ## Markups -/

/-- A blank ends a word. -/
theorem endsWord_of_isBlank {c : Char} (h : Text.isBlank c = true) : endsWord c = true := by
  have hdash : c ≠ '-' := by
    rintro rfl
    exact absurd h (by decide)
  rw [endsWord, Text.isWordChar_of_isBlank h, beq_false_of_ne hdash]
  rfl

/-- What an attribute has behind its string: nothing, or a closing brace. -/
def IsClosing (front : Text) : Prop := front = [] ∨ front = ['\x7d']

/-- What an attribute has behind its string is a closing. -/
theorem Attribute.isClosing_closing (a : Attribute) : IsClosing a.closing := by
  rw [closing]
  cases a.brace with
  | none => exact .inl rfl
  | some blanks => exact .inr rfl

/-- A closing brace does not make a gap hold a name. -/
theorem IsClosing.nameless_append {front : Text} (hfront : IsClosing front)
    (h : ¬ nameLead <:+: t) : ¬ nameLead <:+: front ++ t := by
  rcases hfront with rfl | rfl
  · exact h
  · rw [List.singleton_append, List.infix_cons_iff]
    -- a brace is no letter of a name, so a name would stand in the gap
    rintro (⟨rest, hbrace⟩ | hname)
    · exact absurd (List.cons.inj hbrace).1 (by decide)
    · exact h hname

/-- Behind a gap, or behind a closing brace if the gap is empty, a name may begin. -/
theorem IsClosing.endsWord_append {front : Text} (hfront : IsClosing front) (h : IsGap gap) :
    ∀ c ∈ (front ++ gap).getLast?, endsWord c = true := by
  intro c hc
  rw [Option.mem_def, List.getLast?_append] at hc
  cases hlast : gap.getLast? with
  | some d =>
    rw [hlast, Option.some_or, Option.some.injEq] at hc
    exact hc ▸ endsWord_of_isBlank (h.endsBlank d hlast)
  | none =>
    rw [hlast, Option.none_or] at hc
    rcases hfront with rfl | rfl
    · cases hc
    · obtain rfl : '\x7d' = c := Option.some.inj hc
      decide +kernel

/-- An attribute behind a gap is read, and its name may be the next thing in the text. -/
theorem contents_gap_text (hname : ¬ nameLead <:+: gap)
    (hend : ∀ c ∈ gap.getLast?, endsWord c = true) (a : Attribute) (rest : Text) :
    contents true (gap ++ (a.text ++ rest)) = a.content :: contents true (a.closing ++ rest) := by
  -- the gap is passed over, and whether a name may stand there goes by its end
  rw [contents_gap true fun i hi => not_prefix_of_gap hname hend hi]
  have hfresh : (gap.getLast?.map endsWord).getD true = true := by
    cases hlast : gap.getLast? with
    | none => rfl
    | some c => exact hend c hlast
  rw [hfresh, contents_attribute (a.attribute?_text rest)]

/-- The contents of the attributes are read, in order, and nothing else. -/
theorem contents_closing_write {attributes : List (Text × Attribute)} {last front : Text}
    (hgaps : ∀ p ∈ attributes, IsGap p.1) (hlast : ¬ nameLead <:+: last)
    (hfront : IsClosing front) :
    contents true (front ++ write attributes last) = attributes.map fun p => p.2.content := by
  -- in front of each gap stands what closes the attribute before it
  induction attributes generalizing front with
  | nil => exact contents_eq_nil true (hfront.nameless_append hlast)
  | cons p more ih =>
    obtain ⟨hgap, hmore⟩ := List.forall_mem_cons.1 hgaps
    rw [write, List.append_assoc, ← List.append_assoc,
      contents_gap_text (hfront.nameless_append hgap.nameless) (hfront.endsWord_append hgap),
      ih hmore p.2.isClosing_closing, List.map_cons]

/-! ## Tokens -/

/-- The words that are kept are told apart. -/
theorem nodup_eraseDups : ∀ words : List Text, words.eraseDups.Nodup
  | [] => by
    rw [List.eraseDups_nil]
    exact List.nodup_nil
  | w :: more => by
    rw [List.eraseDups_cons, List.nodup_cons]
    refine ⟨?_, nodup_eraseDups _⟩
    rw [List.mem_eraseDups, List.mem_filter]
    simp
termination_by words => words.length
decreasing_by
  rw [List.length_cons]
  exact Nat.lt_succ_of_le (List.length_filter_le _ _)

/-- No token is read twice. -/
theorem nodup_tokens (t : Text) : (tokens t).Nodup := nodup_eraseDups _

/-- No token is empty or holds a blank. -/
theorem nonblank_of_mem_tokens {w : Text} (h : w ∈ tokens t) :
    w ≠ [] ∧ ∀ c ∈ w, Text.isBlank c = false := by
  rw [tokens, List.mem_eraseDups, List.mem_flatMap] at h
  obtain ⟨content, -, hw⟩ := h
  exact Text.words_nonblank hw

/-- The tokens of a markup are the words of the contents of its attributes, each where it first
    occurs; what stands in a content is never taken for an attribute.  No token comes twice, is
    empty or holds a blank. -/
theorem tokens_write (attributes : List (Text × Attribute)) (last : Text)
    (hgaps : ∀ p ∈ attributes, IsGap p.1) (hlast : ¬ nameLead <:+: last) :
    contents true (write attributes last) = attributes.map (fun p => p.2.content) ∧
    tokens (write attributes last) =
      ((attributes.map fun p => p.2.content).flatMap Text.words).eraseDups ∧
    (tokens (write attributes last)).Nodup ∧
    ∀ w ∈ tokens (write attributes last), w ≠ [] ∧ ∀ c ∈ w, Text.isBlank c = false := by
  have hcontents : contents true (write attributes last) = _ :=
    contents_closing_write hgaps hlast (.inl rfl)
  refine ⟨hcontents, ?_, nodup_tokens _, fun w hw => nonblank_of_mem_tokens hw⟩
  rw [tokens, hcontents]

/-- Behind a plain attribute comes one in braces, with blanks, whose content looks like a third. -/
theorem tokens_write_attribute_in_content :
    let first : Attribute := ⟨.short, [], [], none, '"', "b a", nofun, nofun, nofun, rfl, by decide⟩
    let second : Attribute := ⟨.long, " ", "\t", some "\n", '\x60', "a class='c' a",
      List.all_eq_true.1 rfl, List.all_eq_true.1 rfl, by rintro _ ⟨⟩; exact List.all_eq_true.1 rfl,
      rfl, by decide⟩
    let attributes : List (Text × Attribute) := [("<a ", first), ("></a><b id=c ", second)]
    (∀ p ∈ attributes, IsGap p.1) ∧ ¬ nameLead <:+: "></b>".toList ∧
    write attributes "></b>" =
      "<a class=\"b a\"></a><b id=c className =\t\x7b\n\x60a class='c' a\x60\x7d></b>".toList ∧
    tokens (write attributes "></b>") = (["b", "a", "class='c'"] : List Text) := by
  intro first second attributes
  have hgaps : ∀ p ∈ attributes, IsGap p.1 := by
    intro p hp
    simp only [attributes, List.mem_cons, List.not_mem_nil, or_false] at hp
    rcases hp with rfl | rfl <;> exact ⟨by decide, by rintro _ ⟨⟩; decide⟩
  have hlast : ¬ nameLead <:+: "></b>".toList := by decide
  obtain ⟨-, htokens, -⟩ := tokens_write attributes "></b>" hgaps hlast
  refine ⟨hgaps, hlast, by decide, ?_⟩
  rw [htokens]
  decide +kernel

end UtilityClass.Markup
