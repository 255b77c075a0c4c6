import UtilityClass.Proofs.Text.Ascii
import UtilityClass.Proofs.Text.Cut
import UtilityClass.Text.Blank
import UtilityClass.Uri.Basic

/-!
# Absolute URIs behind a name

A declaration is split as a URI is: its name is taken for the scheme, and its value for the path,
unless the value opens with two slashes.  The path is what a URI is looked for in once more, and it
ends where a query or a fragment would begin.  Neither can belong to the scheme or the authority of
a URI, so what is found in the path is found in the whole value, and the other way round.

## Key results

- `exists_isAbsolute_iff`: which texts split into an absolute URI
- `spellsAbsolute_takeWhile_iff`: a query and a fragment have no part in that
- `split?_declaration`: how a name and a value are split
- `isUriLike_declaration_iff`: a name and a value read as a URI exactly if the value is an absolute
  one
-/

namespace UtilityClass.Uri

/-! ## Schemes -/

/-- A scheme is not empty. -/
theorem ne_nil_of_isScheme {scheme : Text} (h : isScheme scheme = true) : scheme ≠ [] := by
  rintro rfl
  exact nomatch h

/-- All characters of a scheme can be in one. -/
theorem isSchemeChar_of_mem {scheme : Text} (h : isScheme scheme = true) :
    ∀ c ∈ scheme, isSchemeChar c = true := by
  cases scheme with
  | nil => exact nomatch h
  | cons c rest =>
    rw [isScheme, Bool.and_eq_true, List.all_eq_true] at h
    refine List.forall_mem_cons.2 ⟨?_, h.2⟩
    rw [isSchemeChar, Text.isAsciiAlphanumeric_iff.2 (.inl h.1)]
    rfl

/-- A scheme has no colon. -/
theorem colon_not_mem_scheme {scheme : Text} (h : isScheme scheme = true) : ':' ∉ scheme :=
  fun hmem => absurd (isSchemeChar_of_mem h ':' hmem) (by decide)

/-- A scheme in front of a colon is taken. -/
theorem takeScheme_append {scheme : Text} (h : isScheme scheme = true) (rest : Text) :
    takeScheme (scheme ++ ':' :: rest) = (scheme, rest) := by
  have hcut : Text.cut? [':'] (scheme ++ ':' :: rest) = some (scheme, rest) :=
    Text.cut?_singleton_iff.2 ⟨rfl, colon_not_mem_scheme h⟩
  rw [takeScheme, hcut]
  exact if_pos h

/-- What is taken for a scheme is one, and stood in front of a colon. -/
theorem eq_of_takeScheme {t scheme rest : Text} (h : takeScheme t = (scheme, rest))
    (hne : scheme ≠ []) : t = scheme ++ ':' :: rest ∧ isScheme scheme = true := by
  -- a scheme is taken only where a colon is and what is in front of it can be one
  unfold takeScheme at h
  split at h
  · next scheme' rest' hcut =>
    split at h
    · next hscheme =>
      obtain ⟨rfl, rfl⟩ := Prod.mk.inj h
      exact ⟨(Text.cut?_singleton_iff.1 hcut).1, hscheme⟩
    · exact absurd (Prod.mk.inj h).1.symm hne
  · exact absurd (Prod.mk.inj h).1.symm hne

/-! ## Authorities -/

/-- Whether a character can belong to an authority; the first one that cannot ends it. -/
def isAuthorityChar (c : Char) : Bool := c != '/' && c != '?' && c != '#'

/-- Whether an authority is in order. -/
def isInOrder (authority : Text) : Bool :=
  hasGoodBrackets authority && !authority.any delimiterLookalikes.contains

/-- Behind two slashes the authority reaches as far as its characters do. -/
theorem takeAuthority_slashes (rest : Text) :
    takeAuthority ('/' :: '/' :: rest) =
      (rest.takeWhile isAuthorityChar, rest.dropWhile isAuthorityChar) :=
  List.span_eq_takeWhile_dropWhile isAuthorityChar rest

/-- Without two slashes in front there is no authority. -/
theorem takeAuthority_without_slashes {t : Text} (h : ¬ ['/', '/'] <+: t) :
    takeAuthority t = ([], t) := by
  unfold takeAuthority
  split
  · next rest => exact absurd ⟨rest, rfl⟩ h
  · rfl

/-! ## Absolute URIs -/

/-- A text is split where its scheme and its authority end, if the authority is in order. -/
theorem split?_eq {t scheme rest authority tail : Text}
    (hscheme : takeScheme (clean t) = (scheme, rest))
    (hauthority : takeAuthority rest = (authority, tail)) :
    split? t = if isInOrder authority then
      some ⟨scheme, authority, Text.before ['?'] (Text.before ['#'] tail)⟩ else none := by
  unfold split? isInOrder
  simp only [hscheme, hauthority]

/-- A text is an absolute URI as it stands: a scheme, the mark of an authority, and an authority in
    order, which reaches as far as its characters do. -/
def SpellsAbsolute (t : Text) : Prop :=
  ∃ scheme rest, t = scheme ++ (authorityMark ++ rest) ∧ isScheme scheme = true ∧
    rest.takeWhile isAuthorityChar ≠ [] ∧ isInOrder (rest.takeWhile isAuthorityChar) = true

/-- A URI is absolute if it has a scheme and an authority. -/
theorem isAbsolute_iff {u : Uri} : u.isAbsolute = true ↔ u.scheme ≠ [] ∧ u.authority ≠ [] := by
  simp [isAbsolute]

/-- A text splits into an absolute URI exactly if it is one once it is cleaned. -/
theorem exists_isAbsolute_iff {t : Text} :
    (∃ u, split? t = some u ∧ u.isAbsolute = true) ↔ SpellsAbsolute (clean t) := by
  constructor
  -- the scheme and the authority that were taken are put together again
  · intro h
    obtain ⟨u, hsplit, habsolute⟩ := h
    obtain ⟨scheme, rest, hscheme⟩ : ∃ scheme rest, takeScheme (clean t) = (scheme, rest) :=
      ⟨_, _, rfl⟩
    obtain ⟨authority, tail, hauthority⟩ :
        ∃ authority tail, takeAuthority rest = (authority, tail) := ⟨_, _, rfl⟩
    rw [split?_eq hscheme hauthority] at hsplit
    split at hsplit
    · next horder =>
      obtain rfl := Option.some.inj hsplit
      obtain ⟨hscheme_ne, hauthority_ne⟩ := isAbsolute_iff.1 habsolute
      obtain ⟨ht, hvalid⟩ := eq_of_takeScheme hscheme hscheme_ne
      by_cases hslashes : ['/', '/'] <+: rest
      · obtain ⟨behind, rfl⟩ := hslashes
        obtain ⟨rfl, -⟩ := Prod.mk.inj ((takeAuthority_slashes behind).symm.trans hauthority)
        exact ⟨scheme, behind, ht, hvalid, hauthority_ne, horder⟩
      · -- without the two slashes the authority is empty
        rw [takeAuthority_without_slashes hslashes] at hauthority
        exact absurd (Prod.mk.inj hauthority).1.symm hauthority_ne
    · exact nomatch hsplit
  -- a scheme and an authority that stand there are taken
  · intro h
    obtain ⟨scheme, rest, ht, hscheme, hne, horder⟩ := h
    have htake : takeScheme (clean t) = (scheme, '/' :: '/' :: rest) := by
      rw [ht]
      exact takeScheme_append hscheme ('/' :: '/' :: rest)
    have hsplit := split?_eq htake (takeAuthority_slashes rest)
    rw [if_pos horder] at hsplit
    exact ⟨_, hsplit, isAbsolute_iff.2 ⟨ne_nil_of_isScheme hscheme, hne⟩⟩

/-! ## Queries and fragments -/

/-- Whether a character can stand in front of a query and a fragment; the first one that cannot
    begins one of the two. -/
def isPathChar (c : Char) : Bool := c != '?' && c != '#'

/-- What is in front of a fragment and then of a query is what is in front of the first of their
    marks. -/
theorem before_query_fragment (t : Text) :
    Text.before ['?'] (Text.before ['#'] t) = t.takeWhile isPathChar := by
  rw [Text.before_singleton, Text.before_singleton, List.takeWhile_takeWhile]
  congr 1
  funext c
  simp only [isPathChar]
  grind

/-- No character of a scheme begins a query or a fragment. -/
theorem isPathChar_of_isSchemeChar {c : Char} (h : isSchemeChar c = true) :
    isPathChar c = true := by
  rw [isPathChar, Bool.and_eq_true, bne_iff_ne, bne_iff_ne]
  constructor
  · rintro rfl
    exact absurd h (by decide)
  · rintro rfl
    exact absurd h (by decide)

/-- An authority ends where a query or a fragment begins, if not before. -/
theorem takeWhile_isAuthorityChar (t : Text) :
    (t.takeWhile isPathChar).takeWhile isAuthorityChar = t.takeWhile isAuthorityChar := by
  rw [List.takeWhile_takeWhile]
  congr 1
  funext c
  simp only [isAuthorityChar, isPathChar]
  grind

/-- A scheme and the mark of an authority stand in front of any query and fragment. -/
theorem takeWhile_scheme_append {scheme : Text} (h : isScheme scheme = true) (rest : Text) :
    (scheme ++ (authorityMark ++ rest)).takeWhile isPathChar =
      scheme ++ (authorityMark ++ rest.takeWhile isPathChar) := by
  have hscheme : ∀ c ∈ scheme, isPathChar c = true :=
    fun c hc => isPathChar_of_isSchemeChar (isSchemeChar_of_mem h c hc)
  have hmark : ∀ c ∈ authorityMark, isPathChar c = true := List.all_eq_true.1 (by decide)
  rw [List.takeWhile_append_of_pos hscheme, List.takeWhile_append_of_pos hmark]

/-- A query and a fragment have no part in what makes a text an absolute URI. -/
theorem spellsAbsolute_takeWhile_iff {t : Text} :
    SpellsAbsolute (t.takeWhile isPathChar) ↔ SpellsAbsolute t := by
  constructor
  · intro h
    obtain ⟨scheme, rest, ht, hscheme, hne, horder⟩ := h
    -- what was cut off is put back behind the rest
    have hwhole : t = scheme ++ (authorityMark ++ (rest ++ t.dropWhile isPathChar)) := by
      conv => lhs; rw [← List.takeWhile_append_dropWhile (p := isPathChar) (l := t), ht]
      simp only [List.append_assoc]
    have hrest : (rest ++ t.dropWhile isPathChar).takeWhile isPathChar = rest := by
      rw [hwhole, takeWhile_scheme_append hscheme] at ht
      exact List.append_cancel_left (List.append_cancel_left ht)
    rw [← hrest, takeWhile_isAuthorityChar] at hne horder
    exact ⟨scheme, _, hwhole, hscheme, hne, horder⟩
  · intro h
    obtain ⟨scheme, rest, rfl, hscheme, hne, horder⟩ := h
    rw [← takeWhile_isAuthorityChar] at hne horder
    exact ⟨scheme, _, takeWhile_scheme_append hscheme rest, hscheme, hne, horder⟩

/-! ## Cleaned texts -/

/-- Whether a character is taken off the front of a text that is cleaned. -/
def isControl (c : Char) : Bool := c.toNat ≤ 0x20

/-- A text without the characters that cleaning takes out wherever they stand. -/
def Unbroken (t : Text) : Prop := ∀ c ∈ t, c ≠ '\t' ∧ c ≠ '\r' ∧ c ≠ '\n'

/-- Such a text loses what stands at its front alone. -/
theorem Unbroken.clean_eq {t : Text} (h : Unbroken t) : clean t = t.dropWhile isControl := by
  refine List.filter_eq_self.2 ?_
  intro c hc
  -- what is left has none of the characters that cleaning takes out, so nothing is filtered
  have hkept := h c ((List.dropWhile_sublist _).subset hc)
  simp [hkept]

/-- The front of a text has no such characters either. -/
theorem Unbroken.front {t front : Text} (h : Unbroken t) (hfront : front <+: t) :
    Unbroken front :=
  fun c hc => h c (hfront.subset hc)

/-- A text without blanks has none of them: a tab and the ends of lines are blanks. -/
theorem unbroken_of_nonblank {t : Text} (h : ∀ c ∈ t, Text.isBlank c = false) : Unbroken t := by
  intro c hc
  have hblank := h c hc
  refine ⟨?_, ?_, ?_⟩
  all_goals
    rintro rfl
    exact absurd hblank (by decide)

/-- Its query and its fragment may be cut off before it is cleaned. -/
theorem Unbroken.clean_takeWhile {t : Text} (h : Unbroken t) :
    clean (t.takeWhile isPathChar) = (clean t).takeWhile isPathChar := by
  rw [h.clean_eq, (h.front (List.takeWhile_prefix isPathChar)).clean_eq]
  clear h
  -- the characters at the front begin neither a query nor a fragment
  induction t with
  | nil => rfl
  | cons c rest ih =>
    -- a control character goes from both sides; at the first other one the rest is the same
    by_cases hcontrol : isControl c = true
    · have hpath : isPathChar c = true := by
        rw [isPathChar, Bool.and_eq_true, bne_iff_ne, bne_iff_ne]
        constructor
        all_goals
          rintro rfl
          exact absurd hcontrol (by decide)
      rw [List.takeWhile_cons_of_pos hpath, List.dropWhile_cons_of_pos hcontrol,
        List.dropWhile_cons_of_pos hcontrol, ih]
    · rw [List.dropWhile_cons_of_neg hcontrol]
      cases hpath : isPathChar c with
      | true => rw [List.takeWhile_cons_of_pos hpath, List.dropWhile_cons_of_neg hcontrol]
      | false => simp [hpath]

/-! ## Declarations -/

/-- A name that can be a scheme is one, and a value behind it that does not open with two slashes is
    all path, with its query and its fragment cut off. -/
theorem split?_declaration {name value : Text} (hname : isScheme name = true)
    (hblank : ∀ c ∈ value, Text.isBlank c = false) (hslashes : ¬ ['/', '/'] <+: value) :
    split? (name ++ ':' :: value) = some ⟨name, [], value.takeWhile isPathChar⟩ := by
  -- neither the name nor the colon nor the value has a character that cleaning takes out
  have hkept : Unbroken (name ++ ':' :: value) := by
    intro c hc
    rcases List.mem_append.1 hc with hc | hc
    · have hscheme := isSchemeChar_of_mem hname c hc
      refine ⟨?_, ?_, ?_⟩
      all_goals
        rintro rfl
        exact absurd hscheme (by decide)
    · rcases List.mem_cons.1 hc with rfl | hc
      · decide
      · exact unbroken_of_nonblank hblank c hc
  -- the name begins with a letter, so cleaning takes nothing off the front either
  have hclean : clean (name ++ ':' :: value) = name ++ ':' :: value := by
    rw [hkept.clean_eq]
    cases name with
    | nil => exact nomatch hname
    | cons c rest =>
      rw [isScheme, Bool.and_eq_true, Text.isAsciiLetter_iff] at hname
      refine List.dropWhile_cons_of_neg ?_
      simp only [isControl, decide_eq_true_eq]
      omega
  have hscheme : takeScheme (clean (name ++ ':' :: value)) = (name, value) := by
    rw [hclean]
    exact takeScheme_append hname value
  rw [split?_eq hscheme (takeAuthority_without_slashes hslashes), if_pos (by decide),
    before_query_fragment]

/-- Cleaning does not bring about the mark of an authority in such a text. -/
theorem SpellsAbsolute.holds_mark {t : Text} (hkept : Unbroken t) (h : SpellsAbsolute (clean t)) :
    authorityMark <:+: t := by
  obtain ⟨scheme, rest, ht, -⟩ := h
  -- cleaning takes off a front and nothing else
  have hmark : authorityMark <:+: clean t := by
    rw [ht]
    exact ⟨scheme, rest, List.append_assoc _ _ _⟩
  rw [hkept.clean_eq] at hmark
  exact hmark.trans (List.dropWhile_suffix isControl).isInfix

/-- A name with a value reads as a URI exactly if the value itself is an absolute one, whatever the
    name is, as long as it could be a scheme, as every letter with letters, digits and dashes behind
    it could.  The value must have no blanks and not open with two slashes. -/
theorem isUriLike_declaration_iff {name value : Text} (hname : isScheme name = true)
    (hblank : ∀ c ∈ value, Text.isBlank c = false) (hslashes : ¬ ['/', '/'] <+: value) :
    isUriLike (name ++ ':' :: value) = true ↔
      authorityMark <:+: value ∧
        ∃ u, split? value = some u ∧ u.scheme ≠ [] ∧ u.authority ≠ [] := by
  have hkept := unbroken_of_nonblank hblank
  have hname_ne := ne_nil_of_isScheme hname
  let path := value.takeWhile isPathChar
  have hpath : path <+: value := List.takeWhile_prefix isPathChar
  -- the name leaves no authority, so the URI is looked for in the path
  have hnested : isUriLike (name ++ ':' :: value) = true ↔
      authorityMark <:+: name ++ ':' :: value ∧ authorityMark <:+: path ∧
        ∃ u, split? path = some u ∧ u.isAbsolute = true := by
    unfold isUriLike
    rw [split?_declaration hname hblank hslashes]
    simp [isAbsolute, nestsAbsolute, hname_ne, Text.occurs_iff, Option.any_eq_true, path]
  -- the path is the value up to a query or a fragment, cleaned or not
  have hsame : SpellsAbsolute (clean path) ↔ SpellsAbsolute (clean value) := by
    rw [hkept.clean_takeWhile, spellsAbsolute_takeWhile_iff]
  simp only [← isAbsolute_iff]
  rw [hnested, exists_isAbsolute_iff, exists_isAbsolute_iff, hsame]
  constructor
  · intro h
    exact ⟨h.2.2.holds_mark hkept, h.2.2⟩
  · intro h
    -- the mark of the value is in front of any query and fragment, so in the path
    have hmark : authorityMark <:+: path :=
      (hsame.2 h.2).holds_mark (hkept.front hpath)
    refine ⟨?_, hmark, h.2⟩
    exact (hmark.trans hpath.isInfix).trans ⟨name ++ [':'], [], by simp⟩

/-- A name with dashes, a host in brackets, and a query and a fragment with marks of their own. -/
theorem isUriLike_declaration_iff_query :
    ∃ name value : Text, name ++ ':' :: value = "mask-image:https://[::1]:80/a?b=://[#://c" ∧
      isScheme name = true ∧ (∀ c ∈ value, Text.isBlank c = false) ∧ ¬ ['/', '/'] <+: value ∧
      isUriLike (name ++ ':' :: value) = true := by
  let name : Text := "mask-image"
  let value : Text := "https://[::1]:80/a?b=://[#://c"
  have hname : isScheme name = true := by decide +kernel
  have hall : value.all (! Text.isBlank ·) = true := by decide +kernel
  have hblank : ∀ c ∈ value, Text.isBlank c = false := by simpa using hall
  have hslashes : ¬ ['/', '/'] <+: value := by decide +kernel
  have hmark : authorityMark <:+: value := by decide +kernel
  have hsplit : split? value = some ⟨"https", "[::1]:80", "/a"⟩ := by decide +kernel
  refine ⟨name, value, by decide +kernel, hname, hblank, hslashes, ?_⟩
  exact (isUriLike_declaration_iff hname hblank hslashes).2
    ⟨hmark, _, hsplit, by decide +kernel, by decide +kernel⟩

end UtilityClass.Uri
