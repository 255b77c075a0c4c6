import UtilityClass.Proofs.Candidate.Segments

/-!
# Splitting and joining

The segments of a token are closed except for the last one, in which no separator stands outside of
brackets.  On lists of such segments joining is the inverse of splitting, so the base of a token and
its variants give the token back.

## Key results

- `join_eq_intercalate`: a token is its segments with the separator in between
- `closed_of_cut?`: what is cut off is a closed segment
- `separated_split`: splitting gives segments that can be told apart
- `split_intercalate_inverse`: splitting and joining undo each other
-/

namespace UtilityClass.Segments

/-- The segments of a token in order, its base last. -/
def toList (s : Segments) : List Text := s.variants ++ [s.base]

/-- Segments that can be told apart once they are joined: all but the last are closed, and no
    separator stands outside of brackets in the last. -/
structure Separated (separator : Text) (segments : List Text) : Prop where
  ne_nil : segments ≠ []
  closed : ∀ v ∈ segments.dropLast, Closed separator v
  uncut : ∀ base, segments.getLast? = some base → ∀ i, ¬ StandsAt separator 0 base i

/-- All segments but the last are the variants, and the last one is the base. -/
theorem separated_toList_iff {separator : Text} {s : Segments} :
    Separated separator s.toList ↔
      (∀ v ∈ s.variants, Closed separator v) ∧ ∀ i, ¬ StandsAt separator 0 s.base i := by
  constructor
  · intro h
    exact ⟨by simpa [toList] using h.closed, h.uncut s.base (by simp [toList])⟩
  · intro h
    exact ⟨by simp [toList], by simpa [toList] using h.1, by simpa [toList] using h.2⟩

/-- A non-empty list of segments is that of its base and the segments before it. -/
theorem exists_toList_eq {segments : List Text} (h : segments ≠ []) :
    ∃ s : Segments, s.toList = segments :=
  ⟨⟨segments.dropLast, segments.getLast h⟩, List.dropLast_concat_getLast h⟩

/-- A token is its segments with the separator in between. -/
theorem join_eq_intercalate (separator : Text) (s : Segments) :
    join separator s = separator.intercalate s.toList := by
  obtain ⟨variants, base⟩ := s
  induction variants with
  | nil => simp [join, toList]
  | cons v more ih =>
    -- there is a segment behind the first one, and so a separator between the two
    have hne : more ++ [base] ≠ [] := by simp
    calc join separator ⟨v :: more, base⟩
        = v ++ separator ++ join separator ⟨more, base⟩ := by simp [join]
      _ = v ++ separator ++ separator.intercalate (more ++ [base]) := by rw [ih]; rfl
      _ = separator.intercalate (toList ⟨v :: more, base⟩) := by
        simp [toList, List.intercalate_cons_of_ne_nil hne]

variable (config : Config)

/-- What is cut off is a closed segment. -/
theorem closed_of_cut? {t segment after : Text}
    (h : cut? config.separator 0 t = some (segment, after)) : Closed config.separator segment := by
  obtain ⟨rfl, hstands, hfirst⟩ := (cut?_eq_some_iff config).1 h
  -- what stands behind the separator has no part in where the first one stands
  refine ⟨?_, ?_⟩
  · rwa [standsAt_append after (by simp)] at hstands
  · intro i hi
    have hi' := hfirst i hi
    rwa [standsAt_append after (by simp; omega)] at hi'

/-- Splitting gives segments that can be told apart. -/
theorem separated_split (t : Text) :
    Separated config.separator (split config.separator t).toList := by
  -- the cases of splitting; the config admits no empty separator
  rw [separated_toList_iff]
  fun_induction split config.separator t with
  | case1 t hnil => exact absurd hnil config.separator_ne_nil
  | case2 t _ hcut => exact ⟨by simp, (cut?_eq_none_iff config).1 hcut⟩
  | case3 t _ segment after hcut more ih =>
    exact ⟨List.forall_mem_cons.2 ⟨closed_of_cut? config hcut, ih.1⟩, ih.2⟩

/-- Segments that can be told apart are split where they were joined. -/
theorem split_intercalate {segments : List Text} (h : Separated config.separator segments) :
    (split config.separator (config.separator.intercalate segments)).toList = segments := by
  obtain ⟨s, rfl⟩ := exists_toList_eq h.ne_nil
  obtain ⟨hclosed, huncut⟩ := separated_toList_iff.1 h
  rw [← join_eq_intercalate, split_join config hclosed huncut]

/-- The base and the variants of a token. -/
def parts (raw : Text) : Text × List Part :=
  ((split config.separator raw).base, (split config.separator raw).variants.map Part.ofSegment)

/-- The token that has a base behind its variants. -/
def unsplit (p : Text × List Part) : Text :=
  config.separator.intercalate (p.2.map Part.render ++ [p.1])

/-- The variants are written as the segments that they were read from. -/
theorem unsplit_parts (raw : Text) : unsplit config (parts config raw) = raw := by
  -- each variant is written as its segment
  have hrender : ((split config.separator raw).variants.map Part.ofSegment).map Part.render =
      (split config.separator raw).variants := by
    simp [Function.comp_def, render_ofSegment]
  unfold unsplit parts
  rw [hrender]
  exact (join_eq_intercalate _ _).symm.trans (join_split config.separator raw)

/-- Splitting and joining undo each other, on tokens and on lists of segments that can be told
    apart, and so a token is known by its base and its variants. -/
theorem split_intercalate_inverse :
    (∀ raw, config.separator.intercalate (split config.separator raw).toList = raw ∧
      Separated config.separator (split config.separator raw).toList) ∧
    (∀ segments, Separated config.separator segments →
      (split config.separator (config.separator.intercalate segments)).toList = segments) ∧
    (∀ raw, unsplit config (parts config raw) = raw) ∧
    Function.Injective (parts config) := by
  refine ⟨?_, ?_, unsplit_parts config, ?_⟩
  · intro raw
    rw [← join_eq_intercalate, join_split]
    exact ⟨rfl, separated_split config raw⟩
  · intro segments hsegments
    exact split_intercalate config hsegments
  -- what a token is known by gives the token back
  · intro raw raw' hparts
    rw [← unsplit_parts config raw, hparts, unsplit_parts]

/-- The separator may overlap the segments: an underscore that begins the base is left to it. -/
theorem split_intercalate_inverse_overlap :
    ∃ config : Config, config.separator = "__".toList ∧
      Separated config.separator ["a", "[__]", "_b"] ∧
      (split config.separator "a__[__]___b").toList = (["a", "[__]", "_b"] : List Text) ∧
      unsplit config ("_b", [.plain "a", .bracketed "__"]) = "a__[__]___b".toList := by
  let config : Config := ⟨"__", [], false, by decide, by decide, by decide⟩
  have huncut : ∀ i, ¬ StandsAt config.separator 0 "_b" i :=
    (cut?_eq_none_iff config).1 (by decide)
  have hsegments : Separated config.separator (toList ⟨["a", "[__]"], "_b"⟩) :=
    separated_toList_iff.2 ⟨by decide, huncut⟩
  have hinverse := split_intercalate_inverse config
  have hsplit := hinverse.2.1 _ hsegments
  exact ⟨config, rfl, hsegments, hsplit, by decide⟩

end UtilityClass.Segments
