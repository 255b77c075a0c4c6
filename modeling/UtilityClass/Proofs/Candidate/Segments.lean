import UtilityClass.Candidate.Basic
import UtilityClass.Candidate.Segments
import UtilityClass.Config
import UtilityClass.Proofs.Text.Cut

/-!
# Closed segments

A segment is *closed* when the separator that follows it is the first one outside of brackets.
Scanning restarts behind a closed segment in the state in which it began, so closed segments are
cut off one by one, whatever stands behind them.

## Key results

- `cut?_eq_some_iff` / `cut?_eq_none_iff`: the scan finds the first separator at depth zero
- `join_split`: the segments joined by the separator give the token back
- `cut?_append_of_closed`: a closed segment is cut off in front of any rest
- `split_append_of_closed`: splitting goes on behind a closed segment as if it began there
- `split_variants_eq_nil_iff`: which texts have no variants
- `split_join`: closed segments and an uncut base are split where they were joined
- `ofSegment_eq_variantOf`: which variant a segment stands for
-/

namespace UtilityClass.Segments

/-- The separator stands at place `i` outside of brackets, in a text that begins at a depth. -/
def StandsAt (separator : Text) (depth : Nat) (t : Text) (i : Nat) : Prop :=
  (t.take i).foldl deepen depth = 0 ∧ separator <+: t.drop i

instance (separator : Text) (depth : Nat) (t : Text) (i : Nat) :
    Decidable (StandsAt separator depth t i) :=
  inferInstanceAs (Decidable (_ ∧ _))

/-- A segment is closed if the separator behind it is the first one outside of brackets. -/
structure Closed (separator segment : Text) : Prop where
  stands : StandsAt separator 0 (segment ++ separator) segment.length
  first : ∀ i < segment.length, ¬ StandsAt separator 0 (segment ++ separator) i

instance (separator segment : Text) : Decidable (Closed separator segment) :=
  decidable_of_iff
    (StandsAt separator 0 (segment ++ separator) segment.length ∧
      ∀ i < segment.length, ¬ StandsAt separator 0 (segment ++ separator) i)
    ⟨fun h => ⟨h.1, h.2⟩, fun h => ⟨h.stands, h.first⟩⟩

/-! ## Depths -/

/-- Only square brackets change the depth. -/
theorem deepen_of_ne {c : Char} (hopen : c ≠ '[') (hclose : c ≠ ']') (depth : Nat) :
    deepen depth c = depth := by
  simp [deepen, hopen, hclose]

/-- Within a text without brackets the depth stays as it is. -/
theorem foldl_deepen_of_not_mem {t : Text} (hopen : '[' ∉ t) (hclose : ']' ∉ t) (depth : Nat) :
    t.foldl deepen depth = depth := by
  induction t with
  | nil => rfl
  | cons c rest ih =>
    simp only [List.mem_cons, not_or] at hopen hclose
    rw [List.foldl_cons, deepen_of_ne (Ne.symm hopen.1) (Ne.symm hclose.1)]
    exact ih hopen.2 hclose.2

/-! ## Places of the separator -/

/-- At its front a text has the separator outside of brackets if it begins there at depth zero. -/
theorem standsAt_zero {separator : Text} {depth : Nat} {t : Text} :
    StandsAt separator depth t 0 ↔ depth = 0 ∧ separator <+: t := by
  simp [StandsAt]

/-- Behind the first character a place is that of the rest, which begins at the depth behind it. -/
theorem standsAt_succ {separator : Text} {depth : Nat} {c : Char} {t : Text} {i : Nat} :
    StandsAt separator depth (c :: t) (i + 1) ↔ StandsAt separator (deepen depth c) t i := by
  simp [StandsAt]

/-- What follows does not change where the separator stands before its end. -/
theorem standsAt_append {separator : Text} {depth : Nat} {t : Text} (rest : Text) {i : Nat}
    (h : i + separator.length ≤ t.length) :
    StandsAt separator depth (t ++ rest) i ↔ StandsAt separator depth t i := by
  unfold StandsAt
  rw [List.take_append_of_le_length (by omega), List.drop_append_of_le_length (by omega),
    Text.prefix_append_iff]
  simp only [List.length_drop]
  omega

/-- Behind a front part the separator stands as it does in a text that begins at the depth reached
    there. -/
theorem standsAt_length_add {separator : Text} {depth : Nat} (front t : Text) (i : Nat) :
    StandsAt separator depth (front ++ t) (front.length + i) ↔
      StandsAt separator (front.foldl deepen depth) t i := by
  unfold StandsAt
  rw [List.take_length_add_append, List.foldl_append, List.drop_length_add_append]

/-- In front of a character that the separator has not, it stands as if the text ended there. -/
theorem standsAt_append_cons_iff {separator t rest : Text} {depth : Nat} {c : Char} {i : Nat}
    (hc : c ∉ separator) (hi : i ≤ t.length) :
    StandsAt separator depth (t ++ c :: rest) i ↔ StandsAt separator depth t i := by
  unfold StandsAt
  rw [List.take_append_of_le_length hi, List.drop_append_of_le_length hi]
  refine and_congr_right fun _ => ⟨?_, fun h => h.trans (List.prefix_append _ _)⟩
  intro h
  by_cases hlength : separator.length ≤ (t.drop i).length
  · exact (Text.prefix_append_iff _ hlength).1 h
  · -- it would reach up to the character
    have hfront : t.drop i ++ [c] <+: separator := by
      refine List.prefix_of_prefix_length_le ⟨rest, ?_⟩ h ?_
      · rw [List.append_assoc, List.singleton_append]
      · rw [List.length_append, List.length_singleton]
        omega
    exact absurd (hfront.subset (List.mem_append_right _ List.mem_cons_self)) hc

/-- Within text without brackets that begins inside of a bracket no separator stands. -/
theorem not_standsAt_inside {separator t : Text} {depth i : Nat} (hopen : '[' ∉ t)
    (hclose : ']' ∉ t) (hdepth : 0 < depth) (hi : i ≤ t.length) (rest : Text) :
    ¬ StandsAt separator depth (t ++ rest) i := by
  intro hat
  have hzero := hat.1
  rw [List.take_append_of_le_length hi, foldl_deepen_of_not_mem
    (fun hmem => hopen (List.mem_of_mem_take hmem))
    (fun hmem => hclose (List.mem_of_mem_take hmem))] at hzero
  omega

/-- No separator stands in an empty text. -/
theorem not_standsAt_nil {separator : Text} (hne : separator ≠ []) (depth i : Nat) :
    ¬ StandsAt separator depth [] i := by
  intro hat
  obtain ⟨-, h⟩ := hat
  simp only [List.drop_nil, List.prefix_nil] at h
  exact hne h

/-! ## The scan -/

variable (config : Config)

/-- A separator holds no bracket. -/
theorem bracket_not_mem_separator : '[' ∉ config.separator ∧ ']' ∉ config.separator := by
  have hok := List.all_eq_true.1 config.separator_ok
  exact ⟨fun hmem => absurd (hok '[' hmem) (by decide),
    fun hmem => absurd (hok ']' hmem) (by decide)⟩

/-- It does not begin with one. -/
theorem head_ne_bracket_of_separator_prefix {c : Char} {rest : Text}
    (h : config.separator <+: c :: rest) : c ≠ '[' ∧ c ≠ ']' := by
  obtain ⟨hopen, hclose⟩ := bracket_not_mem_separator config
  -- the separator is not empty, so its first character is the first one of the text
  cases hs : config.separator with
  | nil => exact absurd hs config.separator_ne_nil
  | cons d more =>
    rw [hs] at h hopen hclose
    obtain ⟨rfl, -⟩ := List.cons_prefix_cons.1 h
    exact ⟨(List.ne_of_not_mem_cons hopen).symm, (List.ne_of_not_mem_cons hclose).symm⟩

/-- At the front of a text the scan looks for the separator at depth zero alone. -/
theorem afterSeparator?_eq_some_iff {depth : Nat} {t after : Text} :
    afterSeparator? config.separator depth t = some after ↔
      depth = 0 ∧ t = config.separator ++ after := by
  cases t with
  | nil =>
    simp only [afterSeparator?, false_iff, not_and, reduceCtorEq]
    intro _ h
    exact config.separator_ne_nil (List.append_eq_nil_iff.1 h.symm).1
  | cons c rest =>
    rw [afterSeparator?]
    constructor
    · intro h
      split at h
      · next hc => exact ⟨hc.1, (Text.isPrefixOf?_eq_some_iff _ _ _).1 h⟩
      · simp at h
    · intro h
      obtain ⟨hdepth, ht⟩ := h
      -- the guard of the scan against brackets never holds a separator back
      have hc := head_ne_bracket_of_separator_prefix config ⟨after, ht.symm⟩
      rw [if_pos ⟨hdepth, hc⟩]
      exact (Text.isPrefixOf?_eq_some_iff _ _ _).2 ht

/-- The scan finds nothing at the front exactly if no separator stands there outside of brackets. -/
theorem afterSeparator?_eq_none_iff {depth : Nat} {t : Text} :
    afterSeparator? config.separator depth t = none ↔
      ¬ StandsAt config.separator depth t 0 := by
  rw [standsAt_zero, Option.eq_none_iff_forall_ne_some]
  constructor
  -- the separator that stands there is what is found, with all that comes behind it
  · intro h hat
    obtain ⟨hdepth, after, hafter⟩ := hat
    exact h after ((afterSeparator?_eq_some_iff config).2 ⟨hdepth, hafter.symm⟩)
  · intro h after hafter
    obtain ⟨hdepth, ht⟩ := (afterSeparator?_eq_some_iff config).1 hafter
    exact h ⟨hdepth, after, ht.symm⟩

/-- The scan finds no separator exactly when none stands at depth zero. -/
theorem cut?_eq_none_iff {depth : Nat} {t : Text} :
    cut? config.separator depth t = none ↔ ∀ i, ¬ StandsAt config.separator depth t i := by
  -- the depth at which the rest begins depends on the first character
  induction t generalizing depth with
  | nil => simp [cut?, not_standsAt_nil config.separator_ne_nil]
  | cons c rest ih =>
    rw [cut?]
    cases hafter : afterSeparator? config.separator depth (c :: rest) with
    | some after =>
      simp only [reduceCtorEq, false_iff]
      obtain ⟨hdepth, ht⟩ := (afterSeparator?_eq_some_iff config).1 hafter
      exact fun h => h 0 (standsAt_zero.2 ⟨hdepth, after, ht.symm⟩)
    | none =>
      rw [afterSeparator?_eq_none_iff] at hafter
      simp only [Option.map_eq_none_iff, ih]
      constructor
      · intro h i
        cases i with
        | zero => exact hafter
        | succ i => rw [standsAt_succ]; exact h i
      · intro h i
        rw [← standsAt_succ]
        exact h (i + 1)

/-- The scan finds the first separator at depth zero. -/
theorem cut?_eq_some_iff {depth : Nat} {t front after : Text} :
    cut? config.separator depth t = some (front, after) ↔
      t = front ++ config.separator ++ after ∧
        StandsAt config.separator depth t front.length ∧
        ∀ i < front.length, ¬ StandsAt config.separator depth t i := by
  -- the induction runs over the text; front and depth change with every character that is passed
  induction t generalizing depth front with
  | nil => simp [cut?, config.separator_ne_nil]
  | cons c rest ih =>
    rw [cut?]
    cases hafter : afterSeparator? config.separator depth (c :: rest) with
    | some after' =>
      obtain ⟨hdepth, ht⟩ := (afterSeparator?_eq_some_iff config).1 hafter
      have hzero : StandsAt config.separator depth (c :: rest) 0 :=
        standsAt_zero.2 ⟨hdepth, after', ht.symm⟩
      simp only [Option.some.injEq, Prod.mk.injEq]
      -- found here: the front is empty, for any longer one would have had this place before its end
      constructor
      · intro h
        obtain ⟨rfl, rfl⟩ := h
        exact ⟨by simpa using ht, hzero, by simp⟩
      · intro h
        obtain ⟨ht', -, hfirst⟩ := h
        -- a front with a character in it leaves out the place at which it begins
        cases front with
        | nil =>
          rw [ht] at ht'
          exact ⟨rfl, by simpa using ht'⟩
        | cons d front' => exact absurd hzero (hfirst 0 (by simp))
    | none =>
      -- place `i` of the rest, begun at its own depth, is place `i + 1` of the text
      rw [afterSeparator?_eq_none_iff] at hafter
      rw [Text.map_cons_eq_some_iff]
      constructor
      · intro h
        obtain ⟨more, rfl, hcut⟩ := h
        obtain ⟨rfl, hstands, hfirst⟩ := ih.1 hcut
        refine ⟨rfl, standsAt_succ.2 hstands, ?_⟩
        intro i hi
        cases i with
        | zero => exact hafter
        | succ i => rw [standsAt_succ]; exact hfirst i (by simpa using hi)
      · intro h
        obtain ⟨ht, hstands, hfirst⟩ := h
        -- the place of an empty front is the one that was just found to be none
        cases front with
        | nil => exact absurd hstands hafter
        | cons d more =>
          simp only [List.cons_append, List.cons.injEq] at ht
          obtain ⟨rfl, ht⟩ := ht
          refine ⟨more, rfl, ih.2 ⟨ht, standsAt_succ.1 hstands, ?_⟩⟩
          intro i hi
          rw [← standsAt_succ]
          exact hfirst (i + 1) (by simpa using hi)

/-- Whatever the separator, a cut takes out one and nothing else. -/
theorem eq_of_cut? {separator : Text} {depth : Nat} {t front after : Text}
    (h : cut? separator depth t = some (front, after)) : t = front ++ separator ++ after := by
  induction t generalizing depth front with
  | nil => exact absurd h (Option.some_ne_none _).symm
  | cons c rest ih =>
    -- nothing is asked of the separator here, so the scan is opened and not described by places
    rw [cut?] at h
    split at h
    · next hafter =>
      obtain ⟨rfl, rfl⟩ := Prod.mk.inj (Option.some.inj h)
      rw [afterSeparator?, Option.ite_none_right_eq_some] at hafter
      exact (Text.isPrefixOf?_eq_some_iff _ _ _).1 hafter.2
    · obtain ⟨more, rfl, hcut⟩ := Text.map_cons_eq_some_iff.1 h
      rw [ih hcut, List.cons_append, List.cons_append]

/-- Splitting loses nothing: the segments joined by the separator give the token back. -/
theorem join_split (separator t : Text) : join separator (split separator t) = t := by
  fun_induction split separator t with
  | case1 t => simp [join]
  | case2 t hne hcut => simp [join]
  | case3 t hne segment after hcut more ih =>
    -- only the text that is split is rewritten, not the one inside of the recursive call
    conv => rhs; rw [eq_of_cut? hcut, ← ih]
    simp [join, more]

/-- A closed segment is cut off in front of any rest. -/
theorem cut?_append_of_closed {segment : Text} (h : Closed config.separator segment)
    (rest : Text) :
    cut? config.separator 0 (segment ++ config.separator ++ rest) = some (segment, rest) := by
  -- no place up to the end of the segment looks beyond the separator that closes it
  refine (cut?_eq_some_iff config).2 ⟨rfl, ?_, ?_⟩
  · rw [standsAt_append rest (by simp)]
    exact h.stands
  · intro i hi
    rw [standsAt_append rest (by simp; omega)]
    exact h.first i hi

/-! ## Splitting -/

/-- Splitting goes on behind a closed segment as if it began there. -/
theorem split_append_of_closed {segment : Text} (h : Closed config.separator segment)
    (rest : Text) :
    split config.separator (segment ++ config.separator ++ rest) =
      ⟨segment :: (split config.separator rest).variants, (split config.separator rest).base⟩ := by
  rw [split, dif_neg config.separator_ne_nil]
  have hcut := cut?_append_of_closed config h rest
  -- the equation hides the cut behind a match, of which one branch is the cut found above
  split
  · next hnone => exact absurd (hcut.symm.trans hnone) (by simp)
  · next segment' after hsome =>
    rw [hcut] at hsome
    simp only [Option.some.injEq, Prod.mk.injEq] at hsome
    obtain ⟨rfl, rfl⟩ := hsome
    rfl

/-- A text without a separator outside of brackets is all base. -/
theorem split_of_uncut {t : Text} (h : ∀ i, ¬ StandsAt config.separator 0 t i) :
    split config.separator t = ⟨[], t⟩ := by
  rw [split, dif_neg config.separator_ne_nil]
  have hcut := (cut?_eq_none_iff config).2 h
  split
  · rfl
  · next hsome => exact absurd (hcut.symm.trans hsome) (by simp)

/-- A text has no variants exactly if no separator stands outside of brackets in it. -/
theorem split_variants_eq_nil_iff {t : Text} :
    (split config.separator t).variants = [] ↔ ∀ i, ¬ StandsAt config.separator 0 t i := by
  constructor
  · intro h
    rw [split, dif_neg config.separator_ne_nil] at h
    split at h
    · next hcut => exact (cut?_eq_none_iff config).1 hcut
    · exact absurd h (List.cons_ne_nil _ _)
  · intro h
    rw [split_of_uncut config h]

/-- Closed segments and an uncut base are split where they were joined. -/
theorem split_join {s : Segments} (hclosed : ∀ v ∈ s.variants, Closed config.separator v)
    (hbase : ∀ i, ¬ StandsAt config.separator 0 s.base i) :
    split config.separator (join config.separator s) = s := by
  obtain ⟨variants, base⟩ := s
  -- closed segments are split off from the front, one in each step
  induction variants with
  | nil => simpa [join] using split_of_uncut config hbase
  | cons v more ih =>
    have hjoin : join config.separator ⟨v :: more, base⟩ =
        v ++ config.separator ++ join config.separator ⟨more, base⟩ := by
      simp [join]
    rw [hjoin, split_append_of_closed config (hclosed v (by simp)),
      ih (fun w hw => hclosed w (by simp [hw])) hbase]

/-! ## Variants -/

/-- A segment of at least two characters that is enclosed in square brackets stands for a bracketed
    variant, any other segment for a plain one. -/
def variantOf (segment : Text) : Part :=
  if 2 ≤ segment.length ∧ segment.head? = some '[' ∧ segment.getLast? = some ']' then
    .bracketed (segment.drop 1).dropLast
  else .plain segment

/-- A variant is written as the segment that it was read from. -/
theorem render_ofSegment (segment : Text) : (Part.ofSegment segment).render = segment := by
  unfold Part.ofSegment
  cases henc : Text.enclosed? ['['] ']' segment with
  | some inner => exact (Text.enclosed?_eq_some_iff.1 henc).symm
  | none => rfl

/-- Which variant a segment stands for shows in its length and its borders. -/
theorem ofSegment_eq_variantOf (segment : Text) : Part.ofSegment segment = variantOf segment := by
  unfold Part.ofSegment variantOf
  cases henc : Text.enclosed? ['['] ']' segment with
  | some inner =>
    rw [Text.enclosed?_eq_some_iff] at henc
    subst henc
    have hlast : ('[' :: inner ++ [']']).getLast? = some ']' := List.getLast?_concat
    rw [if_pos ⟨by simp, rfl, hlast⟩]
    simp
  | none =>
    -- borders at both ends and two characters would be an enclosed text after all
    rw [if_neg]
    intro h
    obtain ⟨hlen, hhead, hlast⟩ := h
    obtain ⟨front, rfl⟩ := List.getLast?_eq_some_iff.1 hlast
    cases front with
    | nil => simp at hlen
    | cons c inner =>
      simp only [List.cons_append, List.head?_cons, Option.some.injEq] at hhead
      subst hhead
      have hsome : Text.enclosed? ['['] ']' ('[' :: inner ++ [']']) = some inner :=
        Text.enclosed?_eq_some_iff.2 rfl
      rw [henc] at hsome
      exact nomatch hsome

end UtilityClass.Segments
