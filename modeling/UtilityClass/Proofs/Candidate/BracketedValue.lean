import UtilityClass.Proofs.Candidate.Body
import UtilityClass.Proofs.Candidate.Flagged
import UtilityClass.Proofs.Candidate.Modifier
import UtilityClass.Proofs.Candidate.Segments
import UtilityClass.Proofs.Candidate.Token
import UtilityClass.Proofs.Value.Escape

/-!
# Valid values between brackets

Three stages keep track of square brackets.  Splitting counts them, modifiers look for them at the
end of a text, and readers of values also know of quotes and escapes.  They agree on a valid value
unless it hides a square bracket from its reader: then a colon of the value may stand outside of
brackets to the splitting, or its end may look like a modifier.

## Key results

- `Value.foldl_deepen_of_read`: with no bracket hidden, splitting counts the brackets that are
  awaited
- `split_variants_valueToken_iff`: where splitting cuts a token with a bracketed value
- `split_modifier_valueToken_iff`: where a modifier is split off it
- `ofToken_valueToken`: when the token is the name with the value
-/

namespace UtilityClass

/-! ## Hidden brackets -/

namespace Value

/-- A square bracket of the value is escaped or quoted. -/
def HidesBracket (v : Text) : Prop :=
  ∃ (front : Text) (c : Char) (rest : Text) (r : Reader), v = front ++ c :: rest ∧
    Reader.start.read front = some r ∧ (r.escaped = true ∨ r.quote ≠ none) ∧ (c = '[' ∨ c = ']')

/-- Texts that hide no bracket begin with such. -/
theorem HidesBracket.append {v : Text} (h : HidesBracket v) (w : Text) : HidesBracket (v ++ w) := by
  obtain ⟨front, c, rest, r, rfl, hr⟩ := h
  exact ⟨front, c, rest ++ w, r, by simp, hr⟩

/-- A square bracket that is neither escaped nor quoted changes the depth of splitting and the
    brackets that are awaited together, and any other character changes neither. -/
theorem Reader.Steps.deepen {r r' : Reader} {c : Char} (h : r.Steps c r')
    (hseen : c = '[' ∨ c = ']' → r.escaped = false ∧ r.quote = none) :
    Segments.deepen (1 + r.awaited.count ']') c = 1 + r'.awaited.count ']' := by
  -- each way to read a character, by what it asks of the character and of the state
  cases h with
  | escaped =>
    apply Segments.deepen_of_ne
    · exact fun hc => nomatch (hseen (.inl hc)).1
    · exact fun hc => nomatch (hseen (.inr hc)).1
  | closeQuote | withinQuote =>
    apply Segments.deepen_of_ne
    · exact fun hc => nomatch (hseen (.inl hc)).2
    · exact fun hc => nomatch (hseen (.inr hc)).2
  | escape => exact Segments.deepen_of_ne (by decide) (by decide) _
  | openQuote hquote =>
    -- a quote is none of the brackets
    apply Segments.deepen_of_ne
    · exact ne_of_mem_of_not_mem hquote (by decide)
    · exact ne_of_mem_of_not_mem hquote (by decide)
  | openGroup hpair | closeGroup hpair =>
    -- the pair of square brackets is the one that both count
    simp only [brackets, List.mem_cons, Prod.mk.injEq, List.not_mem_nil, or_false] at hpair
    rcases hpair with ⟨rfl, rfl⟩ | ⟨rfl, rfl⟩ | ⟨rfl, rfl⟩ <;> simp [Segments.deepen]
    omega
  | plain hc =>
    have hsquare : ('[', ']') ∈ brackets := by decide
    exact Segments.deepen_of_ne (hc.not_bracket _ hsquare).1 (hc.not_bracket _ hsquare).2 _

/-- Where no bracket is hidden, splitting counts one bracket for each that is awaited, besides the
    one in front of the value. -/
theorem foldl_deepen_of_read {v : Text} {r : Reader} (h : Reader.start.read v = some r)
    (hhides : ¬ HidesBracket v) : v.foldl Segments.deepen 1 = 1 + r.awaited.count ']' := by
  -- from the end, for a reader is known by its last step
  induction v using List.reverseRecOn generalizing r with
  | nil =>
    obtain rfl : _ = r := Option.some.inj h
    rfl
  | append_singleton v c ih =>
    obtain ⟨before, hbefore, hstep⟩ := Reader.read_concat_eq_some_iff.1 h
    have hseen : c = '[' ∨ c = ']' → before.escaped = false ∧ before.quote = none := by
      intro hc
      -- else the last character would be a hidden bracket
      apply Classical.byContradiction
      intro hhidden
      refine hhides ⟨v, c, [], before, rfl, hbefore, ?_, hc⟩
      rwa [not_and_or, Bool.not_eq_false] at hhidden
    rw [List.foldl_append, ih hbefore fun hv => hhides (hv.append [c])]
    exact hstep.deepen hseen

/-- Within a valid value that hides no bracket, the bracket in front of it stays open. -/
theorem one_le_foldl_deepen_of_isValid {front rest : Text} (hvalid : isValid (front ++ rest) = true)
    (hhides : ¬ HidesBracket (front ++ rest)) : 1 ≤ front.foldl Segments.deepen 1 := by
  have hread := read_of_isValid hvalid
  rw [Reader.read_append] at hread
  -- the value is read on behind the front, so the front is read to some state
  obtain ⟨r, hfront, -⟩ := Option.bind_eq_some_iff.1 hread
  rw [foldl_deepen_of_read hfront fun hfront => hhides (hfront.append rest)]
  omega

end Value

/-! ## Colons -/

/-- A colon stands outside of brackets in a text that begins at a depth. -/
def ExposesColon (depth : Nat) (t : Text) : Prop := ∃ i, Segments.StandsAt [':'] depth t i

/-- A colon is exposed at the front, or behind the first character. -/
theorem exposesColon_cons_iff {depth : Nat} {c : Char} {t : Text} :
    ExposesColon depth (c :: t) ↔
      (depth = 0 ∧ c = ':') ∨ ExposesColon (Segments.deepen depth c) t := by
  have hzero : Segments.StandsAt [':'] depth (c :: t) 0 ↔ depth = 0 ∧ c = ':' := by
    rw [Segments.standsAt_zero, List.cons_prefix_cons]
    simp [eq_comm]
  constructor
  · intro h
    obtain ⟨i, hi⟩ := h
    cases i with
    | zero => exact .inl (hzero.1 hi)
    | succ i => exact .inr ⟨i, Segments.standsAt_succ.1 hi⟩
  · intro h
    rcases h with h | ⟨i, hi⟩
    · exact ⟨0, hzero.2 h⟩
    · exact ⟨i + 1, Segments.standsAt_succ.2 hi⟩

/-- The empty text exposes no colon. -/
theorem not_exposesColon_nil (depth : Nat) : ¬ ExposesColon depth [] :=
  fun ⟨i, hi⟩ => Segments.not_standsAt_nil (List.cons_ne_nil _ _) depth i hi

/-- A text without brackets and colons in front exposes nothing. -/
theorem exposesColon_append_iff {front t : Text} (hopen : '[' ∉ front) (hclose : ']' ∉ front)
    (hcolon : ':' ∉ front) : ExposesColon 0 (front ++ t) ↔ ExposesColon 0 t := by
  -- in front of a text nothing is opened, so the depth stays at zero
  induction front with
  | nil => rfl
  | cons c front ih =>
    simp only [List.mem_cons, not_or] at hopen hclose hcolon
    rw [List.cons_append, exposesColon_cons_iff, ← ih hopen.2 hclose.2 hcolon.2,
      Segments.deepen_of_ne (Ne.symm hopen.1) (Ne.symm hclose.1)]
    simp [Ne.symm hcolon.1]

/-- A bracket at the end exposes nothing. -/
theorem exposesColon_concat_close_iff {depth : Nat} {t : Text} :
    ExposesColon depth (t ++ [']']) ↔ ExposesColon depth t := by
  induction t generalizing depth with
  | nil => simp [exposesColon_cons_iff, not_exposesColon_nil]
  | cons c t ih => rw [List.cons_append, exposesColon_cons_iff, exposesColon_cons_iff, ih]

/-- A value that hides no bracket exposes no colon. -/
theorem not_exposesColon_of_isValid {v : Text} (hvalid : Value.isValid v = true)
    (hhides : ¬ Value.HidesBracket v) : ¬ ExposesColon 1 v := by
  intro h
  obtain ⟨i, hdepth, -⟩ := h
  -- in front of the exposed colon the bracket of the value would have been closed
  rw [← List.take_append_drop i v] at hvalid hhides
  have hopen := Value.one_le_foldl_deepen_of_isValid hvalid hhides
  omega

/-! ## Modifiers -/

/-- A text ends like one with a bracketed modifier, but for the closing bracket. -/
def EndsInModifier (t : Text) : Prop :=
  ∃ front inner, t = front ++ '/' :: '[' :: inner ∧ Modifier.WellFormed (.bracketed inner)

/-- What stands in front does not matter if it holds no slash. -/
theorem endsInModifier_append_iff {front t : Text} (h : '/' ∉ front) :
    EndsInModifier (front ++ t) ↔ EndsInModifier t := by
  constructor
  · intro hends
    obtain ⟨front', inner, heq, hinner⟩ := hends
    -- the two ways of cutting are compared by where the slash stands
    rcases List.append_eq_append_iff.1 heq with ⟨more, -, ht⟩ | ⟨more, hfront, ht⟩
    · exact ⟨more, inner, ht, hinner⟩
    · cases more with
      | nil => exact ⟨[], inner, ht.symm, hinner⟩
      | cons c more =>
        -- the slash would stand in front
        obtain ⟨rfl, -⟩ := List.cons.inj ht
        exact absurd (by simp [hfront]) h
  · intro hends
    obtain ⟨front', inner, rfl, hinner⟩ := hends
    exact ⟨front ++ front', inner, by simp, hinner⟩

/-- A value that hides no bracket does not end like a modifier: the bracket would stay open. -/
theorem not_endsInModifier_of_isValid {v : Text} (hvalid : Value.isValid v = true)
    (hhides : ¬ Value.HidesBracket v) : ¬ EndsInModifier v := by
  intro h
  obtain ⟨front, inner, rfl, -, hopen, hclose⟩ := h
  have hend := Value.foldl_deepen_of_read (Value.read_of_isValid hvalid) hhides
  have hfront := Value.one_le_foldl_deepen_of_isValid hvalid hhides
  -- the bracket in front of the inner text is still open at the end
  rw [List.foldl_append, List.foldl_cons, List.foldl_cons,
    Segments.foldl_deepen_of_not_mem hopen hclose] at hend
  simp [Segments.deepen] at hend
  omega

/-- A text without variants is all base. -/
theorem base_of_variants_eq_nil {separator t : Text}
    (h : (Segments.split separator t).variants = []) : (Segments.split separator t).base = t := by
  have hjoin := Segments.join_split separator t
  rwa [Segments.join, h] at hjoin

/-! ## Tokens with bracketed values -/

/-- A name that is not empty, begins with no flag and holds no character by which a token is cut
    up. -/
structure IsPlainName (name : Text) : Prop where
  ne_nil : name ≠ []
  not_flagged : name.head? ≠ some '!' ∧ name.head? ≠ some '-'
  not_cut : ∀ c ∈ ['[', ']', ':', '/'], c ∉ name

/-- Letters, digits and dashes make such a name if a letter is in front. -/
theorem isPlainName_of_letters {c : Char} {rest : Text} (hfirst : Text.isAsciiLower c = true)
    (hrest : rest.all (fun d => Text.isAsciiLower d || d.isDigit || d == '-') = true) :
    IsPlainName (c :: rest) := by
  have hnotFirst : ∀ mark, Text.isAsciiLower mark = false → c ≠ mark := by
    rintro mark hmark rfl
    rw [hfirst] at hmark
    exact nomatch hmark
  have hnotRest : ∀ mark, (Text.isAsciiLower mark || mark.isDigit || mark == '-') = false →
      mark ∉ rest := by
    intro mark hmark hmem
    rw [List.all_eq_true.1 hrest mark hmem] at hmark
    exact nomatch hmark
  refine ⟨List.cons_ne_nil _ _, ⟨?_, ?_⟩, ?_⟩
  · exact fun h => hnotFirst '!' rfl (Option.some.inj h)
  · exact fun h => hnotFirst '-' rfl (Option.some.inj h)
  -- the four marks are neither lower-case letters, digits nor dashes
  · intro mark hmark
    have hcut : Text.isAsciiLower mark = false ∧
        (Text.isAsciiLower mark || mark.isDigit || mark == '-') = false := by
      simp only [List.mem_cons, List.not_mem_nil, or_false] at hmark
      rcases hmark with rfl | rfl | rfl | rfl <;> exact ⟨rfl, rfl⟩
    exact List.not_mem_cons_of_ne_of_not_mem (hnotFirst mark hcut.1).symm (hnotRest mark hcut.2)

/-- The token of a name and a value in square brackets, with the tag of an untagged value. -/
def valueToken (name value : Text) : Text :=
  Body.bracketedText name (Body.untagged ++ ':' :: value)

/-- The name with the value, and nothing else. -/
def valueCandidate (name value : Text) : Candidate where
  raw := valueToken name value
  classPrefix := []
  important := false
  negative := false
  variants := []
  modifiers := []
  body := .custom name value Body.untagged

variable {name value : Text}

/-- The token is the name, the lead with its tag, the value and the bracket that closes it. -/
theorem valueToken_eq (name value : Text) :
    valueToken name value = name ++ ("-[any:".toList ++ value) ++ [']'] := by
  simp [valueToken, Body.bracketedText, Body.untagged]

/-- The token begins as its name does. -/
theorem head?_valueToken (hname : IsPlainName name) :
    (valueToken name value).head? = name.head? := by
  rw [valueToken_eq, List.append_assoc]
  cases name with
  | nil => exact absurd rfl hname.ne_nil
  | cons c rest => rfl

/-- Splitting cuts the token at the colons of the value that are exposed. -/
theorem split_variants_valueToken_iff (hname : IsPlainName name) :
    (Segments.split [':'] (valueToken name value)).variants = [] ↔ ¬ ExposesColon 1 value := by
  have hvalue : ExposesColon 0 (valueToken name value) ↔ ExposesColon 1 value := by
    rw [valueToken_eq, exposesColon_concat_close_iff, exposesColon_append_iff
      (hname.not_cut '[' (by decide)) (hname.not_cut ']' (by decide))
      (hname.not_cut ':' (by decide))]
    simp [exposesColon_cons_iff, Segments.deepen]
  rw [← hvalue, ExposesColon, not_exists]
  exact Segments.split_variants_eq_nil_iff .default

/-- A modifier is split off the token exactly if the value ends like one. -/
theorem split_modifier_valueToken_iff (hname : IsPlainName name) :
    (Modifier.split (valueToken name value)).2 = [] ↔ ¬ EndsInModifier value := by
  rw [valueToken_eq, Modifier.split_snd_eq_nil_iff_of_close]
  -- neither the name nor the tag has a slash
  apply not_congr
  exact (endsInModifier_append_iff (hname.not_cut '/' (by decide))).trans
    (endsInModifier_append_iff (by decide))

/-- The whole token spells the name with the value. -/
theorem ofText_valueToken (hname : IsPlainName name) :
    Body.ofText (valueToken name value) = .custom name value Body.untagged := by
  apply Body.ofText_of_spelled
  refine .tagged ?_ (by decide) ?_
  · intro hdash
    exact hname.not_cut '[' (by decide) (hdash.subset (by decide))
  · intro hspells
    obtain ⟨_, _, -, ht⟩ := hspells
    -- a declaration begins with a bracket
    have hhead : (valueToken name value).head? = some '[' := by
      rcases ht with ht | ht <;> exact congrArg List.head? ht
    rw [head?_valueToken hname] at hhead
    exact hname.not_cut '[' (by decide) (List.mem_of_mem_head? hhead)

/-- A token that is not cut up spells the name with the value. -/
theorem ofToken_valueToken_eq_iff (hname : IsPlainName name) :
    Candidate.ofToken .default (valueToken name value) = .ok (valueCandidate name value) ↔
      (Segments.split [':'] (valueToken name value)).variants = [] ∧
        (Modifier.split (valueToken name value)).2 = [] := by
  have hflags : Flagged.ofBase? .default (valueToken name value) =
      some ⟨false, false, valueToken name value⟩ := by
    have hhead := hname.not_flagged
    rw [← @head?_valueToken name value hname] at hhead
    exact @Flagged.ofBase?_write .default false false _ (by decide) (by decide) hhead.1 hhead.2
  rw [Candidate.ofToken_eq_ok_iff]
  constructor
  · intro h
    obtain ⟨-, flagged, hbase, -, heq⟩ := h
    have hvariants : (Segments.split [':'] (valueToken name value)).variants = [] :=
      List.map_eq_nil_iff.1 (congrArg Candidate.variants heq).symm
    -- without variants the token is its own base
    have hwhole := base_of_variants_eq_nil hvariants
    rw [show Config.default.separator = [':'] from rfl, hwhole, hflags] at hbase
    obtain rfl : _ = flagged := Option.some.inj hbase
    exact ⟨hvariants, (congrArg Candidate.modifiers heq).symm⟩
  · intro h
    obtain ⟨hvariants, hmodifiers⟩ := h
    have htoken : valueToken name value ≠ [] := by
      rw [valueToken_eq]
      exact List.append_ne_nil_of_right_ne_nil _ (List.cons_ne_nil _ _)
    have htext := Modifier.split_fst_of_snd_eq_nil hmodifiers
    refine ⟨htoken, ⟨false, false, valueToken name value⟩, ?_, ?_, ?_⟩
    · rw [show Config.default.separator = [':'] from rfl, base_of_variants_eq_nil hvariants, hflags]
    · rw [htext]
      exact htoken
    · rw [htext, hmodifiers, ofText_valueToken hname,
        show Config.default.separator = [':'] from rfl, hvariants]
      rfl

/-- A name with a valid value in square brackets is read as that name with that value, exactly if no
    colon of the value is outside of brackets as splitting counts them, and the value does not end
    like a modifier.  Both is so if no square bracket of the value is escaped or quoted. -/
theorem ofToken_valueToken (hname : IsPlainName name) (hvalid : Value.isValid value = true) :
    (Candidate.ofToken .default (valueToken name value) = .ok (valueCandidate name value) ↔
      ¬ ExposesColon 1 value ∧ ¬ EndsInModifier value) ∧
    (¬ Value.HidesBracket value →
      Candidate.ofToken .default (valueToken name value) = .ok (valueCandidate name value)) := by
  have hread :
      Candidate.ofToken .default (valueToken name value) = .ok (valueCandidate name value) ↔
        ¬ ExposesColon 1 value ∧ ¬ EndsInModifier value := by
    rw [ofToken_valueToken_eq_iff hname, split_variants_valueToken_iff hname,
      split_modifier_valueToken_iff hname]
  refine ⟨hread, ?_⟩
  intro hhides
  exact hread.2 ⟨not_exposesColon_of_isValid hvalid hhides,
    not_endsInModifier_of_isValid hvalid hhides⟩

/-- Separators and slashes within brackets, quoted or not, cut nothing. -/
theorem ofToken_valueToken_nested :
    ∃ name value : Text, IsPlainName name ∧ Value.isValid value = true ∧
      valueToken name value = "grid-cols-[any:[a:b]/';:/'(x/y:z)]" ∧
      ¬ ExposesColon 1 value ∧ ¬ EndsInModifier value := by
  have hname : IsPlainName "grid-cols" := isPlainName_of_letters (by decide) (by decide)
  have hvalid : Value.isValid "[a:b]/';:/'(x/y:z)" = true := by decide
  have hread : Candidate.ofToken .default (valueToken "grid-cols" "[a:b]/';:/'(x/y:z)") =
      .ok (valueCandidate "grid-cols" "[a:b]/';:/'(x/y:z)") := by decide +kernel
  exact ⟨_, _, hname, hvalid, rfl, (ofToken_valueToken hname hvalid).1.1 hread⟩

/-- A quoted bracket ends the brackets of the token for the splitting, and the colon behind it then
    cuts the token, though the value is valid and holds no blank. -/
theorem ofToken_valueToken_quoted_bracket :
    IsPlainName "a" ∧ Value.isValid "']:'" = true ∧
      "']:'".toList.all (! Text.isBlank ·) = true ∧
      Candidate.ofToken .default (valueToken "a" "']:'") = .ok
        ⟨"a-[any:']:']", [], false, false, [.plain "a-[any:']"], [], .utility "']"⟩ ∧
      Candidate.ofToken .default (valueToken "a" "']:'") ≠ .ok (valueCandidate "a" "']:'") := by
  have hname : IsPlainName "a" := isPlainName_of_letters (by decide) (by decide)
  exact ⟨hname, by decide, by decide, by decide +kernel, by decide +kernel⟩

end UtilityClass
