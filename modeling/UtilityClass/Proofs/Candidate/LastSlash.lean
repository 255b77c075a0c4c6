import UtilityClass.Proofs.Candidate.Recovery
import UtilityClass.Proofs.Candidate.Segments
import UtilityClass.Proofs.Candidate.WellFormed

/-!
# Modifiers and the depth of brackets

A modifier is looked for from the left and without counting brackets.  In a text whose brackets are
closed at its end, as splitting counts them, it is nevertheless the last slash outside of brackets
that decides: what is split off stands behind that slash, and a slash inside of brackets never
begins a modifier.

## Key results

- `foldl_deepen_render`: a modifier closes the brackets that it opens
- `not_standsAt_slash_render`: it holds no slash outside of its brackets
- `split_eq_iff`: what is split off is what was written at the end
- `split_iff_lastSlash`: the last slash outside of brackets decides about the modifier
-/

namespace UtilityClass.Modifier

/-- A slash that is the last one outside of brackets, between what stands in front of it and what
    stands behind it. -/
structure LastSlash (t front rest : Text) : Prop where
  eq : t = front ++ '/' :: rest
  outside : front.foldl Segments.deepen 0 = 0
  last : ∀ i, front.length < i → ¬ Segments.StandsAt ['/'] 0 t i

/-- The modifier that the text behind a slash spells: a word without brackets, or a text without
    brackets between brackets. -/
inductive Spells : Text → Part → Prop
  | word {word : Text} (hne : word ≠ []) (hopen : '[' ∉ word) (hclose : ']' ∉ word) :
      Spells word (.plain word)
  | literal {inner : Text} (hne : inner ≠ []) (hopen : '[' ∉ inner) (hclose : ']' ∉ inner) :
      Spells ('[' :: inner ++ [']']) (.bracketed inner)

variable {t front rest : Text} {part : Part}

/-! ## Written modifiers -/

/-- A written modifier spells itself. -/
theorem spells_render (h : WellFormed part) : Spells part.render part := by
  cases part with
  | plain word => exact .word h.1 h.2.1 h.2.2.1
  | bracketed inner => exact .literal h.1 h.2.1 h.2.2

/-- What spells a modifier is that modifier as it is written. -/
theorem render_of_spells (h : Spells rest part) : part.render = rest := by
  cases h with
  | word _ _ _ => rfl
  | literal _ _ _ => rfl

/-- A modifier closes the brackets that it opens. -/
theorem foldl_deepen_render (h : WellFormed part) (depth : Nat) :
    part.render.foldl Segments.deepen depth = depth := by
  cases part with
  | plain word => exact Segments.foldl_deepen_of_not_mem h.2.1 h.2.2.1 depth
  | bracketed inner =>
    show ('[' :: inner ++ [']']).foldl Segments.deepen depth = depth
    rw [List.cons_append, List.foldl_cons, List.foldl_append,
      Segments.foldl_deepen_of_not_mem h.2.1 h.2.2]
    simp [Segments.deepen]

/-- A modifier holds no slash outside of its brackets. -/
theorem not_standsAt_slash_render (h : WellFormed part) (i : Nat) :
    ¬ Segments.StandsAt ['/'] 0 part.render i := by
  intro hat
  -- a word holds no slash at all
  cases part with
  | plain word =>
    have hmem : '/' ∈ word.drop i := hat.2.subset (List.mem_singleton_self _)
    exact h.2.2.2 (List.mem_of_mem_drop hmem)
  | bracketed inner =>
    -- the opening bracket is no slash, and behind it the depth is one
    cases i with
    | zero => exact absurd (List.cons_prefix_cons.1 hat.2).1 (by decide)
    | succ i =>
      have hrender : (Part.bracketed inner).render = '[' :: (inner ++ [']']) := rfl
      rw [hrender, Segments.standsAt_succ] at hat
      by_cases hi : i ≤ inner.length
      · exact Segments.not_standsAt_inside h.2.1 h.2.2 (by decide) hi _ hat
      · -- nothing is left behind the closing bracket
        have hnil : (inner ++ [']']).drop i = [] := List.drop_eq_nil_of_le (by simp; omega)
        rw [Segments.StandsAt, hnil] at hat
        exact absurd hat.2 (by decide)

/-- In a text without line feeds, what is split off is what was written at its end. -/
theorem split_eq_iff (hfeed : '\n' ∉ t) :
    split t = (front, [part]) ↔ t = front ++ '/' :: part.render ∧ WellFormed part := by
  constructor
  · intro h
    obtain ⟨feed, -, ht⟩ := eq_of_split t
    have hpart : WellFormed part := wellFormed_of_mem_split (t := t) (by rw [h]; simp)
    rw [h] at ht
    -- behind the modifier there is at most a line feed, and the text has none
    cases feed with
    | false => exact ⟨by simpa [text, flagText] using ht, hpart⟩
    | true =>
      rw [ht] at hfeed
      exact absurd (by simp [flagText]) hfeed
  · intro h
    obtain ⟨rfl, hpart⟩ := h
    exact split_append_render hpart front

/-! ## The last slash -/

/-- Where a text with closed brackets ends in a written modifier, the slash in front of that is the
    last one outside of brackets. -/
theorem lastSlash_render (h : WellFormed part)
    (hdepth : (front ++ '/' :: part.render).foldl Segments.deepen 0 = 0) :
    LastSlash (front ++ '/' :: part.render) front part.render := by
  have houtside : front.foldl Segments.deepen 0 = 0 := by
    rw [List.foldl_append, List.foldl_cons, foldl_deepen_render h,
      Segments.deepen_of_ne (by decide) (by decide)] at hdepth
    exact hdepth
  refine ⟨rfl, houtside, ?_⟩
  intro i hi hat
  -- a later place is one in the modifier, which begins at depth zero
  obtain ⟨k, rfl⟩ : ∃ k, i = front.length + (k + 1) := ⟨i - front.length - 1, by omega⟩
  rw [Segments.standsAt_length_add, houtside, Segments.standsAt_succ,
    Segments.deepen_of_ne (by decide) (by decide)] at hat
  exact not_standsAt_slash_render h k hat

/-- What the text behind the last slash outside of brackets spells is a modifier that can be
    written: a word without brackets would have its own slashes outside of brackets too. -/
theorem LastSlash.wellFormed (h : LastSlash t front rest) (hspells : Spells rest part) :
    WellFormed part := by
  cases hspells with
  | literal hne hopen hclose => exact ⟨hne, hopen, hclose⟩
  | word hne hopen hclose =>
    refine ⟨hne, hopen, hclose, ?_⟩
    intro hslash
    -- a slash in the word would be one outside of brackets behind the last one
    obtain ⟨left, right, rfl⟩ := List.append_of_mem hslash
    simp only [List.mem_append, not_or] at hopen hclose
    apply h.last (front.length + (left.length + 1)) (by omega)
    rw [h.eq, Segments.standsAt_length_add, h.outside, Segments.standsAt_succ,
      Segments.deepen_of_ne (by decide) (by decide), ← Nat.add_zero left.length,
      Segments.standsAt_length_add, Segments.foldl_deepen_of_not_mem hopen.1 hclose.1,
      Segments.standsAt_zero]
    exact ⟨rfl, right, rfl⟩

/-- In a text without line feeds whose brackets are closed at its end, a modifier is split off
    exactly if the text behind the last slash outside of brackets spells one, and then it is that
    one and is split off at that slash.  What is kept has its brackets closed at its end, too. -/
theorem split_iff_lastSlash (hfeed : '\n' ∉ t) (hdepth : t.foldl Segments.deepen 0 = 0) :
    (∀ front part, split t = (front, [part]) ↔
      ∃ rest, LastSlash t front rest ∧ Spells rest part) ∧
    ((split t).2 = [] ↔ ∀ front rest part, LastSlash t front rest → ¬ Spells rest part) ∧
    (split t).1.foldl Segments.deepen 0 = 0 := by
  have hcut : ∀ front part, split t = (front, [part]) ↔
      ∃ rest, LastSlash t front rest ∧ Spells rest part := by
    intro front part
    rw [split_eq_iff hfeed]
    constructor
    · intro h
      obtain ⟨rfl, hpart⟩ := h
      exact ⟨part.render, lastSlash_render hpart hdepth, spells_render hpart⟩
    · intro h
      obtain ⟨rest, hlast, hspells⟩ := h
      rw [render_of_spells hspells]
      exact ⟨hlast.eq, hlast.wellFormed hspells⟩
  -- the modifiers that are split off are none or one
  have hparts : (split t).2 = [] ∨ ∃ part, split t = ((split t).1, [part]) := by
    have hlength := length_split_le t
    match hmods : (split t).2 with
    | [] => exact .inl rfl
    | [part] => exact .inr ⟨part, Prod.ext rfl hmods⟩
    | _ :: _ :: _ => simp [hmods] at hlength
  refine ⟨hcut, ?_, ?_⟩
  · constructor
    · intro hnone front rest part hlast hspells
      rw [(hcut front part).2 ⟨rest, hlast, hspells⟩] at hnone
      exact absurd hnone (List.cons_ne_nil _ _)
    · intro hnone
      rcases hparts with hmods | ⟨part, hsplit⟩
      · exact hmods
      · obtain ⟨rest, hlast, hspells⟩ := (hcut _ _).1 hsplit
        exact absurd hspells (hnone _ _ _ hlast)
  · rcases hparts with hmods | ⟨part, hsplit⟩
    · rw [split_fst_of_snd_eq_nil hmods, hdepth]
    · obtain ⟨rest, hlast, -⟩ := (hcut _ _).1 hsplit
      exact hlast.outside

/-- A stray closing bracket leaves the depth at zero, and of the slashes inside of brackets neither
    the first nor the last begins the modifier. -/
theorem split_iff_lastSlash_nested :
    ∃ t front rest : Text, t = "]a-[b/c]]/[1/2]" ∧ '\n' ∉ t ∧ t.foldl Segments.deepen 0 = 0 ∧
      split t = (front, [.bracketed "1/2"]) ∧ LastSlash t front rest ∧
      Spells rest (.bracketed "1/2") ∧ front = "]a-[b/c]]" := by
  let t : Text := "]a-[b/c]]/[1/2]"
  have hfeed : '\n' ∉ t := by decide +kernel
  have hdepth : t.foldl Segments.deepen 0 = 0 := by decide +kernel
  have hsplit : split t = ("]a-[b/c]]".toList, [.bracketed "1/2"]) := by decide +kernel
  obtain ⟨rest, hlast, hspells⟩ := ((split_iff_lastSlash hfeed hdepth).1 _ _).1 hsplit
  exact ⟨t, _, rest, rfl, hfeed, hdepth, hsplit, hlast, hspells, rfl⟩

end UtilityClass.Modifier
