import UtilityClass.Candidate.Body
import UtilityClass.Proofs.Text.Ascii
import UtilityClass.Proofs.Text.Cut

/-!
# The grammar of bodies

`Body.Spelled` says by rules which body a text spells.  A text that spells a declaration spells
nothing else; then comes a bracketed value behind the leftmost `-[`; every other text is a plain
name.

## Key results

- `declaration?_eq_some_iff`: which texts spell a declaration
- `bracketed?_eq_some_iff`: which texts spell a name with a bracketed value
- `tagged_of_isTag` / `tagged_of_untagged`: which values carry a tag
- `ofText_eq_iff`: a text spells exactly the body that is read from it
-/

namespace UtilityClass.Body

/-- A name and a value that make a declaration in square brackets. -/
structure IsDeclaration (name value : Text) : Prop where
  name_ne_nil : name ≠ []
  name_chars : ∀ c ∈ name, isNameChar c = true
  value_ne_nil : value ≠ []
  value_nonblank : ∀ c ∈ value, Text.isBlank c = false

/-- A declaration as it is written. -/
def declarationText (name value : Text) : Text := '[' :: name ++ ':' :: value ++ [']']

/-- A name with a bracketed value as it is written. -/
def bracketedText (name inner : Text) : Text := name ++ ['-', '['] ++ inner ++ [']']

/-- Whether a text is a declaration, up to a final line feed. -/
def SpellsDeclaration (t : Text) : Prop :=
  ∃ name value, IsDeclaration name value ∧
    (t = declarationText name value ∨ t = declarationText name value ++ ['\n'])

/-- Whether the text between the brackets begins with a tag and a colon. -/
def SpellsTag (inner : Text) : Prop :=
  ∃ tag value, isTag tag = true ∧ inner = tag ++ ':' :: value

/-- Which body a text spells. -/
inductive Spelled : Text → Body → Prop
  | property {name value : Text} (h : IsDeclaration name value) :
      Spelled (declarationText name value) (.property name value)
  /-- A line feed behind a declaration is passed over. -/
  | propertyLine {name value : Text} (h : IsDeclaration name value) :
      Spelled (declarationText name value ++ ['\n']) (.property name value)
  | tagged {name tag value : Text} (hname : ¬ ['-', '['] <:+: name) (htag : isTag tag = true)
      (h : ¬ SpellsDeclaration (bracketedText name (tag ++ ':' :: value))) :
      Spelled (bracketedText name (tag ++ ':' :: value)) (.custom name value tag)
  | untagged {name inner : Text} (hname : ¬ ['-', '['] <:+: name) (htag : ¬ SpellsTag inner)
      (h : ¬ SpellsDeclaration (bracketedText name inner)) :
      Spelled (bracketedText name inner) (.custom name inner Body.untagged)
  | utility {t : Text} (h : ¬ SpellsDeclaration t)
      (hcustom : ∀ name inner, t ≠ bracketedText name inner) : Spelled t (.utility t)

/-! ## Declarations -/

/-- A property name holds no colon. -/
private theorem colon_not_mem_name {name : Text} (h : ∀ c ∈ name, isNameChar c = true) :
    ':' ∉ name := by
  intro hmem
  exact absurd (h ':' hmem) (by decide)

/-- A text spells a declaration exactly if it is one, up to a final line feed. -/
theorem declaration?_eq_some_iff {t name value : Text} :
    declaration? t = some (name, value) ↔
      IsDeclaration name value ∧
        (t = declarationText name value ∨ t = declarationText name value ++ ['\n']) := by
  have hlines : Text.chomp t = '[' :: (name ++ ':' :: value) ++ [']'] ↔
      t = declarationText name value ∨ t = declarationText name value ++ ['\n'] := by
    rw [Text.chomp_eq_append_iff (by decide)]
    simp [declarationText]
  unfold declaration?
  -- the name holds no colon, so the first colon is the one behind it
  rw [← hlines]
  constructor
  -- from the text inwards: the brackets, the first colon, and then the checks of the two parts
  · intro h
    split at h
    · exact nomatch h
    · next inner hinner =>
      split at h
      · exact nomatch h
      · next name' value' hcut =>
        split at h
        · next hok =>
          simp only [Option.some.injEq, Prod.mk.injEq] at h
          obtain ⟨rfl, rfl⟩ := h
          obtain ⟨hname, hnameChars, hvalue, hvalueChars⟩ := hok
          rw [Text.enclosed?_eq_some_iff] at hinner
          rw [hinner, (Text.cut?_singleton_iff.1 hcut).1]
          refine ⟨⟨hname, List.all_eq_true.1 hnameChars, hvalue, ?_⟩, rfl⟩
          simpa [List.all_eq_true] using hvalueChars
        · exact nomatch h
  · intro h
    -- from the declaration outwards, each stage finds what was put together
    obtain ⟨⟨hname, hnameChars, hvalue, hvalueChars⟩, ht⟩ := h
    have hinner : Text.enclosed? ['['] ']' t.chomp = some (name ++ ':' :: value) :=
      Text.enclosed?_eq_some_iff.2 ht
    have hcut : Text.cut? [':'] (name ++ ':' :: value) = some (name, value) :=
      Text.cut?_singleton_iff.2 ⟨rfl, colon_not_mem_name hnameChars⟩
    have hnonblank : value.all (! Text.isBlank ·) = true := by
      rw [List.all_eq_true]
      intro c hc
      rw [hvalueChars c hc]
      rfl
    rw [hinner]
    dsimp only
    rw [hcut]
    exact if_pos ⟨hname, List.all_eq_true.2 hnameChars, hvalue, hnonblank⟩

/-- No declaration is read from a text exactly if it spells none. -/
theorem declaration?_eq_none_iff {t : Text} :
    declaration? t = none ↔ ¬ SpellsDeclaration t := by
  rw [Option.eq_none_iff_forall_ne_some]
  constructor
  · intro h hspells
    obtain ⟨name, value, hdecl⟩ := hspells
    exact h (name, value) (declaration?_eq_some_iff.2 hdecl)
  · intro h found hfound
    exact h ⟨found.1, found.2, declaration?_eq_some_iff.1 hfound⟩

/-! ## Bracketed values -/

/-- In front of a `-[` there is another one only within the name: a dash and a bracket do not
    overlap. -/
theorem cut?_dash_bracket_iff {t name rest : Text} :
    Text.cut? ['-', '['] t = some (name, rest) ↔
      t = name ++ ['-', '['] ++ rest ∧ ¬ ['-', '['] <:+: name := by
  rw [Text.cut?_eq_some_iff (by simp)]
  constructor
  · intro h
    -- a place within the name would have been found first
    obtain ⟨rfl, hfirst⟩ := h
    refine ⟨rfl, ?_⟩
    intro hinfix
    obtain ⟨left, right, rfl⟩ := hinfix
    apply hfirst left.length (by simp)
    exact ⟨right ++ ['-', '['] ++ rest, by simp⟩
  · intro h
    obtain ⟨rfl, hname⟩ := h
    refine ⟨rfl, ?_⟩
    intro i hi hpre
    rw [List.append_assoc, List.drop_append_of_le_length (by omega)] at hpre
    -- at the last character of the name a dash would have to be followed by the dash behind it
    by_cases hlast : i + 1 = name.length
    · rw [List.drop_eq_getElem_cons hi, List.drop_eq_nil_of_le (by omega)] at hpre
      obtain ⟨more, hmore⟩ := hpre
      simp at hmore
    · rw [Text.prefix_append_iff _ (by simp; omega)] at hpre
      exact hname (hpre.isInfix.trans (List.drop_suffix i name).isInfix)

/-- A text spells a name with a bracketed value if it has a `-[` and ends in `]`; the name ends at
    the leftmost `-[`. -/
theorem bracketed?_eq_some_iff {t name inner : Text} :
    bracketed? t = some (name, inner) ↔
      t = bracketedText name inner ∧ ¬ ['-', '['] <:+: name := by
  unfold bracketed? bracketedText
  constructor
  · intro h
    split at h
    · next name' rest hcut =>
      split at h
      -- the last character behind the lead is the bracket that closes the value
      · next hlast =>
        obtain ⟨front, rfl⟩ := List.getLast?_eq_some_iff.1 hlast
        simp only [List.dropLast_concat, Option.some.injEq, Prod.mk.injEq] at h
        obtain ⟨rfl, rfl⟩ := h
        rw [cut?_dash_bracket_iff] at hcut
        exact ⟨by rw [hcut.1, List.append_assoc (name' ++ _)], hcut.2⟩
      · exact nomatch h
    · exact nomatch h
  · intro h
    have hcut : Text.cut? ['-', '['] t = some (name, inner ++ [']']) :=
      cut?_dash_bracket_iff.2 ⟨by rw [h.1, List.append_assoc (name ++ _)], h.2⟩
    simp [hcut]

/-- No bracketed value is read from a text exactly if it is none around any name. -/
theorem bracketed?_eq_none_iff {t : Text} :
    bracketed? t = none ↔ ∀ name inner, t ≠ bracketedText name inner := by
  rw [Option.eq_none_iff_forall_ne_some]
  constructor
  · intro h name inner ht
    subst ht
    -- the name may hold a `-[` itself: the leftmost one is found
    cases hcut : Text.cut? ['-', '['] (bracketedText name inner) with
    | none =>
      rw [Text.cut?_eq_none_iff] at hcut
      exact hcut ⟨name, inner ++ [']'], by simp [bracketedText]⟩
    | some found =>
      obtain ⟨front, rest⟩ := found
      have hfront := cut?_dash_bracket_iff.1 hcut
      have hlast : (bracketedText name inner).getLast? = some ']' := List.getLast?_concat
      -- the rest is not empty and ends as the text does, in a bracket
      cases hrest : rest.getLast? with
      | none =>
        rw [List.getLast?_eq_none_iff] at hrest
        rw [hfront.1, hrest] at hlast
        simp at hlast
      | some c =>
        obtain ⟨more, rfl⟩ := List.getLast?_eq_some_iff.1 hrest
        rw [hfront.1, ← List.append_assoc, List.getLast?_concat] at hlast
        simp only [Option.some.injEq] at hlast
        subst hlast
        apply h (front, more)
        exact bracketed?_eq_some_iff.2 ⟨by rw [hfront.1]; simp [bracketedText], hfront.2⟩
  · intro h found hfound
    exact h found.1 found.2 (bracketed?_eq_some_iff.1 hfound).1

/-! ## Tags -/

/-- A tag holds letters, digits and dashes alone. -/
theorem of_mem_tag {tag : Text} (h : isTag tag = true) {c : Char} (hc : c ∈ tag) :
    (Text.isAsciiAlphanumeric c || c == '-') = true := by
  cases tag with
  | nil => exact nomatch hc
  | cons d rest =>
    simp only [isTag, Bool.and_eq_true] at h
    -- the first character is a letter, the others are checked one by one
    cases hc with
    | head => rw [Text.isAsciiAlphanumeric_iff.2 (.inl h.1), Bool.true_or]
    | tail _ hrest => exact List.all_eq_true.1 h.2 c hrest

/-- A tag holds no colon. -/
private theorem colon_not_mem_tag {tag : Text} (h : isTag tag = true) : ':' ∉ tag :=
  fun hmem => absurd (of_mem_tag h hmem) (by decide)

/-- A value begins with a tag exactly if one stands in front of its first colon. -/
theorem spellsTag_iff {inner : Text} :
    SpellsTag inner ↔ (Text.cut? [':'] inner).any (fun found => isTag found.1) = true := by
  rw [Option.any_eq_true]
  constructor
  · intro h
    obtain ⟨tag, value, htag, ht⟩ := h
    exact ⟨(tag, value), Text.cut?_singleton_iff.2 ⟨ht, colon_not_mem_tag htag⟩, htag⟩
  · intro h
    obtain ⟨⟨tag, value⟩, hcut, htag⟩ := h
    exact ⟨tag, value, htag, (Text.cut?_singleton_iff.1 hcut).1⟩

instance (inner : Text) : Decidable (SpellsTag inner) := decidable_of_iff _ spellsTag_iff.symm

/-- A tag before the first colon is taken off the value. -/
theorem tagged_of_isTag {tag : Text} (h : isTag tag = true) (value : Text) :
    Body.tagged (tag ++ ':' :: value) = (value, tag) := by
  have hcut : Text.cut? [':'] (tag ++ ':' :: value) = some (tag, value) :=
    Text.cut?_singleton_iff.2 ⟨rfl, colon_not_mem_tag h⟩
  simp [Body.tagged, hcut, h]

/-- A value that does not begin with a tag is kept whole. -/
theorem tagged_of_untagged {inner : Text} (h : ¬ SpellsTag inner) :
    Body.tagged inner = (inner, Body.untagged) := by
  unfold Body.tagged
  split
  · next tag value hcut =>
    rw [if_neg]
    intro htag
    exact h ⟨tag, value, htag, (Text.cut?_singleton_iff.1 hcut).1⟩
  · rfl

/-! ## Bodies -/

/-- Every text spells the body that is read from it. -/
theorem spelled_ofText (t : Text) : Spelled t (ofText t) := by
  -- the stages of `ofText` in their order, each with the rule that it stands for
  unfold ofText
  split
  · next name value hdecl =>
    obtain ⟨hdecl, ht⟩ := declaration?_eq_some_iff.1 hdecl
    cases ht with
    | inl ht => rw [ht]; exact .property hdecl
    | inr ht => rw [ht]; exact .propertyLine hdecl
  · next hnone =>
    rw [declaration?_eq_none_iff] at hnone
    split
    · next name inner hbracketed =>
      obtain ⟨rfl, hname⟩ := bracketed?_eq_some_iff.1 hbracketed
      by_cases hspells : SpellsTag inner
      · obtain ⟨tag, value, htag, rfl⟩ := hspells
        rw [tagged_of_isTag htag]
        exact .tagged hname htag hnone
      · rw [tagged_of_untagged hspells]
        exact .untagged hname hspells hnone
    · next hbracketed => exact .utility hnone (bracketed?_eq_none_iff.1 hbracketed)

/-- A text spells no other body than the one that is read from it. -/
theorem ofText_of_spelled {t : Text} {b : Body} (h : Spelled t b) : ofText t = b := by
  unfold ofText
  cases h with
  | property hdecl => rw [declaration?_eq_some_iff.2 ⟨hdecl, .inl rfl⟩]
  | propertyLine hdecl => rw [declaration?_eq_some_iff.2 ⟨hdecl, .inr rfl⟩]
  | tagged hname htag hnone =>
    rw [declaration?_eq_none_iff.2 hnone, bracketed?_eq_some_iff.2 ⟨rfl, hname⟩]
    dsimp only
    rw [tagged_of_isTag htag]
  | untagged hname hspells hnone =>
    rw [declaration?_eq_none_iff.2 hnone, bracketed?_eq_some_iff.2 ⟨rfl, hname⟩]
    dsimp only
    rw [tagged_of_untagged hspells]
  | utility hnone hcustom =>
    rw [declaration?_eq_none_iff.2 hnone, bracketed?_eq_none_iff.2 hcustom]

/-- A text spells exactly the body that is read from it. -/
theorem ofText_eq_iff {t : Text} {b : Body} : ofText t = b ↔ Spelled t b := by
  constructor
  · intro h
    rw [← h]
    exact spelled_ofText t
  · exact ofText_of_spelled

end UtilityClass.Body
