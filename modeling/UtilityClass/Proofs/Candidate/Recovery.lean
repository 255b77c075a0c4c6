import UtilityClass.Proofs.Candidate.Body
import UtilityClass.Proofs.Candidate.Flagged
import UtilityClass.Proofs.Candidate.Modifier
import UtilityClass.Proofs.Candidate.Segments
import UtilityClass.Proofs.Candidate.Token
import UtilityClass.Proofs.Gate

/-!
# What a candidate tells of its token

Each stage of the reading takes something off the token and keeps it in the candidate, so the parts
of the candidate, written one behind the other, are the token again.  Two things are not kept: a
line feed behind the closing bracket of a declaration, and one behind that of a modifier.

## Key results

- `Modifier.eq_of_split`: a text is what stands before its modifier and the modifier
- `Body.exists_writtenAs`: a text is the body that it spells
- `Candidate.ofToken_writtenAs`: a token is the parts of its candidate, up to line feeds
- `Candidate.ofToken_recovers`: it is those parts alone exactly if no such line feed stands in it
-/

namespace UtilityClass

/-! ## Modifiers -/

namespace Modifier

/-- The modifiers as they are written, each behind a slash. -/
def text (parts : List Part) : Text := parts.flatMap fun part => '/' :: part.render

/-- A modifier is what it was read from; behind a bracketed one there may be a line feed. -/
theorem eq_of_ofText? {t : Text} {part : Part} (h : ofText? t = some part) :
    ∃ feed : Bool, (feed = true → ∃ inner, part = .bracketed inner) ∧
      t = part.render ++ flagText '\n' feed := by
  obtain ⟨-, ht | ⟨hinner, ht⟩⟩ := ofText?_eq_some_iff.1 h
  · exact ⟨false, by simp, by simpa [flagText] using ht⟩
  · exact ⟨true, fun _ => hinner, ht⟩

/-- A text is what stands before its modifier and the modifier. -/
theorem eq_of_split (t : Text) :
    ∃ feed : Bool, (feed = true → ∃ inner, (split t).2 = [.bracketed inner]) ∧
      t = (split t).1 ++ text (split t).2 ++ flagText '\n' feed := by
  -- over the text up to the slash behind which a modifier is spelled
  induction t with
  | nil => exact ⟨false, by simp, rfl⟩
  | cons c rest ih =>
    rw [split]
    cases hbehind : behindSlash? (c :: rest) with
    | none =>
      obtain ⟨feed, hfeed, hrest⟩ := ih
      exact ⟨feed, hfeed, congrArg (c :: ·) hrest⟩
    | some part =>
      rw [behindSlash?] at hbehind
      split at hbehind
      · next hslash =>
        obtain ⟨feed, hfeed, rfl⟩ := eq_of_ofText? hbehind
        refine ⟨feed, ?_, by simp [text, hslash]⟩
        intro h
        obtain ⟨inner, rfl⟩ := hfeed h
        exact ⟨inner, rfl⟩
      · cases hbehind

end Modifier

/-! ## Bodies -/

namespace Body

/-- The texts that stand for a body.  The tag of a value may be left out if it is that of an
    untagged one. -/
inductive WrittenAs : Body → Text → Prop
  | utility (name : Text) : WrittenAs (.utility name) name
  | property (name value : Text) : WrittenAs (.property name value) (declarationText name value)
  | untagged (name value : Text) :
      WrittenAs (.custom name value Body.untagged) (bracketedText name value)
  | tagged (name value tag : Text) :
      WrittenAs (.custom name value tag) (bracketedText name (tag ++ ':' :: value))

/-- A text is the body that it spells; behind a declaration there may be a line feed. -/
theorem exists_writtenAs {t : Text} {b : Body} (h : Spelled t b) :
    ∃ (written : Text) (feed : Bool), b.WrittenAs written ∧
      -- by the rule that spells the body: the one for a line feed is the only one that adds one
      (feed = true → ∃ name value, b = .property name value) ∧
      t = written ++ flagText '\n' feed := by
  cases h with
  | @property name value _ => exact ⟨_, false, .property name value, by simp, by simp [flagText]⟩
  | @propertyLine name value _ => exact ⟨_, true, .property name value, by simp, by simp [flagText]⟩
  | @tagged name tag value _ _ _ =>
    exact ⟨_, false, .tagged name value tag, by simp, by simp [flagText]⟩
  | @untagged name inner _ _ _ =>
    exact ⟨_, false, .untagged name inner, by simp, by simp [flagText]⟩
  | @utility t _ _ => exact ⟨_, false, .utility t, by simp, by simp [flagText]⟩

end Body

/-! ## Candidates -/

/-- Where line feeds stand that a candidate does not tell of. -/
structure LineFeeds where
  behindBody : Bool
  behindModifier : Bool
  deriving DecidableEq

/-- No line feed that a candidate does not tell of. -/
def LineFeeds.none : LineFeeds := ⟨false, false⟩

/-- Such line feeds stand only behind the closing brackets of declarations and modifiers. -/
structure LineFeeds.Fit (feeds : LineFeeds) (c : Candidate) : Prop where
  body : feeds.behindBody = true → ∃ name value, c.body = .property name value
  modifier : feeds.behindModifier = true → ∃ inner, c.modifiers = [.bracketed inner]

namespace Candidate

/-- What stands in front of the body: each variant with a separator behind it, the marks of the
    flags and the required prefix.  A dash may stand on either side of the prefix. -/
def opening (config : Config) (c : Candidate) (early late : Bool) : Text :=
  c.variants.flatMap (·.render ++ config.separator) ++ flagText '!' c.important ++
    flagText '-' early ++ config.requiredPrefix ++ flagText '-' late

/-- The token is the parts of the candidate, one behind the other, with line feeds in two places. -/
def WrittenAs (config : Config) (c : Candidate) (feeds : LineFeeds) (raw : Text) : Prop :=
  ∃ (early late : Bool) (body : Text), (early || late) = c.negative ∧ c.body.WrittenAs body ∧
    raw = c.opening config early late ++ body ++ flagText '\n' feeds.behindBody ++
      Modifier.text c.modifiers ++ flagText '\n' feeds.behindModifier

/-- A line feed stands behind the closing bracket of the modifier, or behind that of the declaration
    and in front of the modifier, if there is one. -/
def EndsLine (c : Candidate) (raw : Text) : Prop :=
  (∃ inner, c.modifiers = [.bracketed inner] ∧ ['\n'] <:+ raw) ∨
  (∃ name value, c.body = .property name value ∧ '\n' :: Modifier.text c.modifiers <:+ raw)

/-- A token is the parts of its candidate, one behind the other, with line feeds or without. -/
theorem ofToken_writtenAs {config : Config} {raw : Text} {c : Candidate}
    (h : ofToken config raw = .ok c) :
    ∃ feeds : LineFeeds, feeds.Fit c ∧ c.WrittenAs config feeds raw := by
  obtain ⟨-, flagged, hbase, -, rfl⟩ := ofToken_eq_ok_iff.1 h
  obtain ⟨early, late, hnegative, -, hflags⟩ := Flagged.eq_of_ofBase? hbase
  obtain ⟨behindModifier, hmodifier, htext⟩ := Modifier.eq_of_split flagged.text
  obtain ⟨body, behindBody, hbody, hproperty, hfront⟩ :=
    Body.exists_writtenAs (Body.spelled_ofText (Modifier.split flagged.text).1)
  -- the body may have its line feed, and the modifier may have its own
  refine ⟨⟨behindBody, behindModifier⟩, ⟨hproperty, hmodifier⟩, early, late, body, hnegative, hbody,
    ?_⟩
  have hvariants : ((Segments.split config.separator raw).variants.map Part.ofSegment).flatMap
      (·.render ++ config.separator) =
      (Segments.split config.separator raw).variants.flatMap (· ++ config.separator) := by
    simp [List.flatMap_map, Segments.render_ofSegment]
  calc raw = (Segments.split config.separator raw).variants.flatMap (· ++ config.separator) ++
        (Segments.split config.separator raw).base :=
        (Segments.join_split config.separator raw).symm
    _ = _ := by
      -- each stage has cut up the text that the one before has left
      rw [opening, hvariants, hflags]
      conv => lhs; rw [htext, hfront]
      simp only [List.append_assoc]

/-! ## Line feeds -/

/-- A text that ends in one character and then a rest does not end in another and that rest. -/
private theorem not_suffix_of_ne {c d : Char} (h : d ≠ c) (front rest : Text) :
    ¬ d :: rest <:+ front ++ c :: rest := by
  intro hsuffix
  obtain ⟨t, ht⟩ := hsuffix
  have hends : (t ++ [d]) ++ rest = (front ++ [c]) ++ rest := by simpa using ht
  have hlast := (List.append_inj' (List.append_cancel_right hends) rfl).2
  exact h (by simpa using hlast)

variable {config : Config} {raw : Text} {c : Candidate}

/-- Where the parts are all there is, closing brackets stand where a line feed would end a line. -/
theorem WrittenAs.not_endsLine (h : c.WrittenAs config .none raw) : ¬ c.EndsLine raw := by
  intro hends
  obtain ⟨early, late, body, -, hbody, hraw⟩ := h
  rcases hends with ⟨inner, hmodifiers, hsuffix⟩ | ⟨name, value, hdeclaration, hsuffix⟩
  · -- the token ends in the closing bracket of the modifier
    have hclose : raw = (c.opening config early late ++ body ++ '/' :: '[' :: inner) ++ [']'] := by
      rw [hraw, hmodifiers]
      simp [Modifier.text, Part.render, flagText, LineFeeds.none]
    rw [hclose] at hsuffix
    exact not_suffix_of_ne (by decide) _ _ hsuffix
  · -- the closing bracket of the declaration stands in front of the modifier
    rw [hdeclaration] at hbody
    cases hbody
    have hclose : raw = (c.opening config early late ++ '[' :: name ++ ':' :: value) ++
        ']' :: Modifier.text c.modifiers := by
      rw [hraw]
      simp [Body.declarationText, flagText, LineFeeds.none]
    rw [hclose] at hsuffix
    exact not_suffix_of_ne (by decide) _ _ hsuffix

/-- A line feed that the candidate does not tell of ends a line. -/
theorem WrittenAs.endsLine {feeds : LineFeeds} (h : c.WrittenAs config feeds raw)
    (hfit : feeds.Fit c) (hne : feeds ≠ .none) : c.EndsLine raw := by
  -- one of the two line feeds stands there, and its place says which line it ends
  obtain ⟨behindBody, behindModifier⟩ := feeds
  obtain ⟨early, late, body, -, -, hraw⟩ := h
  cases behindModifier with
  | true =>
    obtain ⟨inner, hmodifiers⟩ := hfit.modifier rfl
    refine .inl ⟨inner, hmodifiers, ?_⟩
    rw [hraw]
    exact List.suffix_append _ _
  | false =>
    cases behindBody with
    | true =>
      obtain ⟨name, value, hdeclaration⟩ := hfit.body rfl
      have hline : raw = (c.opening config early late ++ body) ++
          '\n' :: Modifier.text c.modifiers := by
        rw [hraw]
        simp [flagText]
      refine .inr ⟨name, value, hdeclaration, ?_⟩
      rw [hline]
      exact List.suffix_append _ _
    | false => exact absurd rfl hne

/-- A token is the parts of its candidate, one behind the other: each variant with a separator
    behind it, the marks of its flags with the required prefix, the body and the modifier.  Nothing
    else stands in it, unless a line feed ends its declaration or its bracketed modifier. -/
theorem ofToken_recovers (h : ofToken config raw = .ok c) :
    (∃ feeds : LineFeeds, feeds.Fit c ∧ c.WrittenAs config feeds raw) ∧
      (c.WrittenAs config .none raw ↔ ¬ c.EndsLine raw) := by
  obtain ⟨feeds, hfit, hwritten⟩ := ofToken_writtenAs h
  refine ⟨⟨feeds, hfit, hwritten⟩, WrittenAs.not_endsLine, ?_⟩
  intro hends
  by_cases hnone : feeds = .none
  · rw [hnone] at hwritten
    exact hwritten
  · exact absurd (hwritten.endsLine hfit hnone) hends

/-- The line feed behind a bracketed modifier is no part of the candidate. -/
theorem ofToken_recovers_modifier_line :
    ∃ c, ofToken .default "a/[b]\n" = .ok c ∧ c.EndsLine "a/[b]\n" ∧
      ¬ c.WrittenAs .default .none "a/[b]\n" := by
  let c : Candidate :=
    ⟨"a/[b]\n", [], false, false, [], [.bracketed "b"], .utility "a"⟩
  have htoken : ofToken .default "a/[b]\n" = .ok c := by decide +kernel
  have hends : c.EndsLine "a/[b]\n" := .inl ⟨"b", rfl, "a/[b]", rfl⟩
  have hrecovers := ofToken_recovers htoken
  exact ⟨c, htoken, hends, fun hwhole => hrecovers.2.1 hwhole hends⟩

end Candidate

end UtilityClass
