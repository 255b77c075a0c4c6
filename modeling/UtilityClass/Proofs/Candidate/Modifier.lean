import Mathlib.Data.List.Induction
import UtilityClass.Candidate.Modifier
import UtilityClass.Proofs.Text.Cut

/-!
# Written modifiers

A modifier that is written behind a slash at the end of a text is read back, whatever stands in
front of it: no earlier slash has a rest that spells a modifier.

## Key results

- `bracketed?_eq_some_iff`: which texts spell a bracketed modifier
- `ofText?_eq_some_iff`: which texts spell a modifier
- `ofText?_append_render`: a text that ends in a written modifier is no modifier itself
- `split_append_render`: a modifier is split off where it was written
- `split_snd_eq_nil_iff_of_close`: what is split off in front of a closing bracket
-/

namespace UtilityClass.Modifier

/-- A modifier that can be written: a word without brackets and slashes, or a text without
    brackets, neither of them empty. -/
def WellFormed : Part → Prop
  | .plain word => word ≠ [] ∧ '[' ∉ word ∧ ']' ∉ word ∧ '/' ∉ word
  | .bracketed inner => inner ≠ [] ∧ '[' ∉ inner ∧ ']' ∉ inner

instance (part : Part) : Decidable (WellFormed part) := by
  cases part <;> exact inferInstanceAs (Decidable (_ ∧ _))

/-- A text holds no bracket if it holds neither of the two. -/
private theorem any_isBracket_eq_false_iff {t : Text} :
    t.any isBracket = false ↔ '[' ∉ t ∧ ']' ∉ t := by
  simp only [List.any_eq_false, isBracket, Bool.or_eq_true, not_or, imp_and, forall_and, beq_iff_eq,
    List.forall_mem_ne']

/-- A bracketed modifier is a text without brackets between brackets, up to a final line feed. -/
theorem bracketed?_eq_some_iff {t inner : Text} :
    bracketed? t = some inner ↔
      (t = '[' :: inner ++ [']'] ∨ t = '[' :: inner ++ [']', '\n']) ∧
        WellFormed (.bracketed inner) := by
  have hlines : Text.enclosed? ['['] ']' t.chomp = some inner ↔
      t = '[' :: inner ++ [']'] ∨ t = '[' :: inner ++ [']', '\n'] := by
    rw [Text.enclosed?_eq_some_iff, ← Text.chomp_eq_append_iff (by decide)]
    rfl
  rw [← hlines]
  unfold bracketed?
  constructor
  · intro h
    split at h
    · next inner' hinner =>
      split at h
      · next hok =>
        simp only [Option.some.injEq] at h
        subst h
        exact ⟨hinner, hok.1, any_isBracket_eq_false_iff.1 (by simpa using hok.2)⟩
      · exact nomatch h
    · exact nomatch h
  · intro h
    obtain ⟨hinner, hne, hbrackets⟩ := h
    rw [hinner]
    exact if_pos ⟨hne, by simp [any_isBracket_eq_false_iff.2 hbrackets]⟩

/-- The text behind a slash is a modifier as it is written, up to a line feed behind the closing
    bracket of a bracketed one. -/
theorem ofText?_eq_some_iff {t : Text} {part : Part} :
    ofText? t = some part ↔
      WellFormed part ∧
        (t = part.render ∨ (∃ inner, part = .bracketed inner) ∧ t = part.render ++ ['\n']) := by
  have hword : ∀ word : Text, word.any (fun c => isBracket c || c == '/') = false ↔
      '[' ∉ word ∧ ']' ∉ word ∧ '/' ∉ word := by
    intro word
    rw [← and_assoc, ← any_isBracket_eq_false_iff]
    simp only [List.any_eq_false, Bool.or_eq_true, not_or, imp_and, forall_and, beq_iff_eq,
      List.forall_mem_ne']
  -- the bracketed reading comes first, and leaves to the other one what it does not take
  constructor
  · intro h
    unfold ofText? at h
    split at h
    · next inner hinner =>
      obtain rfl : _ = part := Option.some.inj h
      obtain ⟨hlines, hwellFormed⟩ := bracketed?_eq_some_iff.1 hinner
      rcases hlines with rfl | rfl
      · exact ⟨hwellFormed, .inl rfl⟩
      · exact ⟨hwellFormed, .inr ⟨⟨inner, rfl⟩, by simp [Part.render]⟩⟩
    · split at h
      · next hok =>
        obtain rfl : _ = part := Option.some.inj h
        exact ⟨⟨hok.1, (hword t).1 (by simpa using hok.2)⟩, .inl rfl⟩
      · cases h
  · intro h
    obtain ⟨hwellFormed, ht⟩ := h
    cases part with
    | bracketed inner =>
      have hread : bracketed? t = some inner := by
        refine bracketed?_eq_some_iff.2 ⟨ht.imp id fun hfeed => ?_, hwellFormed⟩
        simpa [Part.render] using hfeed.2
      rw [ofText?, hread]
    | plain word =>
      obtain rfl : t = word := by
        rcases ht with ht | ⟨⟨inner, hinner⟩, -⟩
        · exact ht
        · cases hinner
      have hread : bracketed? t = none := by
        rw [Option.eq_none_iff_forall_ne_some]
        intro inner hinner
        -- a word without brackets does not begin with one
        have hopen := hwellFormed.2.1
        rcases (bracketed?_eq_some_iff.1 hinner).1 with ht | ht
        all_goals
          rw [ht] at hopen
          exact hopen (by simp)
      rw [ofText?, hread]
      exact if_pos ⟨hwellFormed.1, by simp [(hword t).2 hwellFormed.2]⟩

/-- A modifier is read from what is written for it. -/
theorem ofText?_render {part : Part} (h : WellFormed part) : ofText? part.render = some part :=
  ofText?_eq_some_iff.2 ⟨h, .inl rfl⟩

/-- What stands behind the last slash of a text in brackets holds its closing bracket. -/
private theorem close_mem_of_append_slash {front rest inner : Text}
    (h : front ++ '/' :: rest = '[' :: inner ++ [']']) : ']' ∈ rest := by
  have hlast : (front ++ '/' :: rest).getLast? = some ']' := by
    rw [h]
    exact List.getLast?_concat
  rw [List.getLast?_append, List.getLast?_cons] at hlast
  -- the last character of the whole is that of the rest, or else the slash
  cases hrest : rest.getLast? with
  | none => simp [hrest] at hlast
  | some c =>
    simp only [hrest, Option.getD_some, Option.some_or, Option.some.injEq] at hlast
    subst hlast
    exact List.mem_of_getLast? hrest

/-- A text that ends in a written modifier is no bracketed modifier itself. -/
private theorem bracketed?_append_render {part : Part} (h : WellFormed part) (front : Text) :
    bracketed? (front ++ '/' :: part.render) = none := by
  rw [Option.eq_none_iff_forall_ne_some]
  intro inner hinner
  -- by the kind of the modifier, for a word leaves room for a line feed behind the bracket
  obtain ⟨hlines, -, hopen, -⟩ := bracketed?_eq_some_iff.1 hinner
  cases part with
  | plain word =>
    obtain ⟨hne, -, hclose, -⟩ := h
    cases hlines with
    | inl ht => exact hclose (close_mem_of_append_slash ht)
    | inr ht =>
      -- the line feed belongs to the word, and the closing bracket stands before it
      obtain ⟨last, more, hword⟩ : ∃ last more, word = more ++ [last] :=
        ⟨word.getLast hne, word.dropLast, (List.dropLast_concat_getLast hne).symm⟩
      have hfront : front ++ '/' :: more = '[' :: inner ++ [']'] := by
        simp only [Part.render, hword] at ht
        have hcut : (front ++ '/' :: more) ++ [last] = ('[' :: inner ++ [']']) ++ ['\n'] := by
          simpa using ht
        exact (List.append_inj' hcut rfl).1
      rw [hword] at hclose
      exact hclose (List.mem_append_left _ (close_mem_of_append_slash hfront))
  | bracketed literal =>
    have hend : front ++ '/' :: '[' :: literal ++ [']'] = '[' :: inner ++ [']'] := by
      cases hlines with
      | inl ht => simpa [Part.render] using ht
      | inr ht =>
        have hcut : (front ++ '/' :: '[' :: literal) ++ [']'] =
            ('[' :: inner ++ [']']) ++ ['\n'] := by simpa [Part.render] using ht
        exact absurd (List.append_inj' hcut rfl).2 (by decide)
    have hbody : front ++ '/' :: '[' :: literal = '[' :: inner := (List.append_inj' hend rfl).1
    -- the bracket that opens the modifier is not the one that opens the text
    have hmem : '[' ∈ inner := by
      cases front with
      | nil => simp at hbody
      | cons c more =>
        simp only [List.cons_append, List.cons.injEq] at hbody
        rw [← hbody.2]
        simp
    exact hopen hmem

/-- A text that ends in a written modifier is no modifier itself. -/
theorem ofText?_append_render {part : Part} (h : WellFormed part) (front : Text) :
    ofText? (front ++ '/' :: part.render) = none := by
  unfold ofText?
  rw [bracketed?_append_render h front]
  dsimp only
  rw [if_neg]
  -- a word holds no slash, and here one stands in front of the modifier
  intro hok
  simp at hok

/-- A modifier is split off where it was written. -/
theorem split_append_render {part : Part} (h : WellFormed part) (front : Text) :
    split (front ++ '/' :: part.render) = (front, [part]) := by
  -- a slash in front is passed over: what is behind it ends in a written modifier
  induction front with
  | nil =>
    rw [List.nil_append, split]
    simp [behindSlash?, ofText?_render h]
  | cons c more ih =>
    rw [List.cons_append, split]
    have hnone : behindSlash? (c :: (more ++ '/' :: part.render)) = none := by
      rw [behindSlash?, ofText?_append_render h more, ite_self]
    rw [hnone]
    dsimp only
    rw [ih]

/-- What is split off stands behind a slash. -/
theorem exists_of_split_snd_ne_nil {t : Text} (h : (split t).2 ≠ []) :
    ∃ front rest part, t = front ++ '/' :: rest ∧ ofText? rest = some part := by
  -- at the first slash that has a modifier behind it, or further on
  induction t with
  | nil => exact absurd rfl h
  | cons c rest ih =>
    rw [split] at h
    cases hbehind : behindSlash? (c :: rest) with
    | some part =>
      rw [behindSlash?] at hbehind
      split at hbehind
      · next hslash => exact ⟨[], rest, part, by rw [hslash, List.nil_append], hbehind⟩
      · cases hbehind
    | none =>
      rw [hbehind] at h
      obtain ⟨front, behind, part, hrest, hpart⟩ := ih h
      exact ⟨c :: front, behind, part, by rw [hrest, List.cons_append], hpart⟩

/-- From a text that ends in a closing bracket a modifier is split off exactly if a bracketed one
    ends there. -/
theorem split_snd_eq_nil_iff_of_close {t : Text} :
    (split (t ++ [']'])).2 = [] ↔
      ¬ ∃ front inner, t = front ++ '/' :: '[' :: inner ∧ WellFormed (.bracketed inner) := by
  constructor
  · intro h hmodifier
    obtain ⟨front, inner, rfl, hinner⟩ := hmodifier
    have hsplit := split_append_render hinner front
    have hrender : front ++ '/' :: (Part.bracketed inner).render =
        front ++ '/' :: '[' :: inner ++ [']'] := by simp [Part.render]
    rw [hrender] at hsplit
    rw [hsplit] at h
    exact absurd h (List.cons_ne_nil _ _)
  · intro h
    apply Classical.byContradiction
    intro hne
    obtain ⟨front, rest, part, ht, hpart⟩ := exists_of_split_snd_ne_nil hne
    -- the slash is not the closing bracket, so the rest has the bracket at its end
    obtain ⟨more, rfl, rfl⟩ : ∃ more, rest = more ++ [']'] ∧ t = front ++ '/' :: more := by
      cases rest using List.reverseRecOn with
      | nil => exact absurd (List.append_inj' ht rfl).2 (by decide)
      | append_singleton more c =>
        have hends : t ++ [']'] = (front ++ '/' :: more) ++ [c] := by simpa using ht
        obtain ⟨rfl, hc⟩ := List.append_inj' hends rfl
        exact ⟨more, by rw [(List.cons.inj hc).1], rfl⟩
    obtain ⟨hwellFormed, hlines⟩ := ofText?_eq_some_iff.1 hpart
    cases part with
    | plain word =>
      rcases hlines with hline | ⟨⟨inner, hinner⟩, -⟩
      · -- a word does not end in a bracket
        obtain rfl : more ++ [']'] = word := hline
        exact hwellFormed.2.2.1 (by simp)
      · cases hinner
    | bracketed inner =>
      have hmore : more = '[' :: inner := by
        rcases hlines with hline | ⟨-, hline⟩
        · exact (List.append_inj' hline rfl).1
        · exact absurd (List.append_inj' hline rfl).2 (by decide)
      exact h ⟨front, inner, by rw [hmore], hwellFormed⟩

/-- A text from which no modifier is split off is kept whole. -/
theorem split_fst_of_snd_eq_nil {t : Text} (h : (split t).2 = []) : (split t).1 = t := by
  induction t with
  | nil => rfl
  | cons c rest ih =>
    rw [split] at h ⊢
    -- the branch of a modifier has one in its list
    split at h
    · simp at h
    · exact congrArg (c :: ·) (ih h)

end UtilityClass.Modifier
