import Mathlib.Data.List.Infix
import Mathlib.Data.List.TakeWhile
import UtilityClass.Text.Basic

/-!
# Cuts of texts

What the cuts of `UtilityClass.Text` find, said without their recursion.

## Key results

- `cut?_eq_some_iff`: a cut is made at the first place where the part stands
- `cut?_singleton_iff`: a cut at a character leaves no such character in front
- `cut?_eq_none_iff`: no cut is made exactly when the part stands nowhere
- `before_singleton`: what stands before a character
- `occurs_iff`: to stand in a text is to be an infix of it
- `enclosed?_eq_some_iff`: a text between two borders is the borders around it
- `eq_chomp_or`: a text has a final line feed, or it is left as it is
- `chomp_eq_iff`: a text without its final line feed has lost at most that
-/

namespace UtilityClass.Text

/-! ## Prefixes -/

/-- Reading a part off the front succeeds exactly on the part followed by what remains. -/
theorem isPrefixOf?_eq_some_iff (part t rest : Text) :
    part.isPrefixOf? t = some rest ↔ t = part ++ rest :=
  List.isPrefixOf?_eq_some_iff_append_eq.trans eq_comm

/-- Reading a part off the front fails exactly when the text does not begin with it. -/
theorem isPrefixOf?_eq_none_iff (part t : Text) :
    part.isPrefixOf? t = none ↔ ¬ part <+: t := by
  constructor
  · intro h hat
    obtain ⟨rest, rfl⟩ := hat
    have := (isPrefixOf?_eq_some_iff part (part ++ rest) rest).2 rfl
    simp [h] at this
  · intro h
    -- a part that is read off stands at the front, so nothing is read off
    cases hp : part.isPrefixOf? t with
    | none => rfl
    | some rest =>
      exact absurd ⟨rest, ((isPrefixOf?_eq_some_iff part t rest).1 hp).symm⟩ h

/-- A part that fits into the first text is already a prefix of it. -/
theorem prefix_append_iff {part t : Text} (rest : Text) (h : part.length ≤ t.length) :
    part <+: t ++ rest ↔ part <+: t := by
  constructor
  · intro hp
    exact List.prefix_of_prefix_length_le hp (List.prefix_append t rest) h
  · intro hp
    exact hp.trans (List.prefix_append t rest)

/-! ## Leftmost cuts -/

/-- A cut in the rest of a text is a cut in the text, one character further. -/
theorem map_cons_eq_some_iff {x : Option (Text × Text)} {c : Char} {front after : Text} :
    x.map (fun (front, after) => (c :: front, after)) = some (front, after) ↔
      ∃ more, front = c :: more ∧ x = some (more, after) := by
  rw [Option.map_eq_some_iff]
  constructor
  · intro h
    obtain ⟨⟨f, a⟩, hx, heq⟩ := h
    simp only [Prod.mk.injEq] at heq
    obtain ⟨rfl, rfl⟩ := heq
    exact ⟨f, rfl, hx⟩
  · intro h
    obtain ⟨more, rfl, hx⟩ := h
    exact ⟨(more, after), hx, rfl⟩

/-- A cut is made at the first place where the part stands. -/
theorem cut?_eq_some_iff {part t front after : Text} (hne : part ≠ []) :
    cut? part t = some (front, after) ↔
      t = front ++ part ++ after ∧ ∀ i < front.length, ¬ part <+: t.drop i := by
  -- by induction on the text, for any front, which loses its first character with the text
  induction t generalizing front with
  | nil =>
    have hnone : part.isPrefixOf? ([] : Text) = none := by
      rw [isPrefixOf?_eq_none_iff]; simpa using hne
    simp [cut?, hnone, hne]
  | cons c rest ih =>
    rw [cut?]
    cases hp : part.isPrefixOf? (c :: rest) with
    | some after' =>
      rw [isPrefixOf?_eq_some_iff] at hp
      simp only [Option.some.injEq, Prod.mk.injEq]
      constructor
      · intro h
        obtain ⟨rfl, rfl⟩ := h
        exact ⟨by simpa using hp, by simp⟩
      · intro h
        obtain ⟨ht, hfirst⟩ := h
        cases front with
        | nil =>
          rw [hp] at ht
          exact ⟨rfl, by simpa using ht⟩
        | cons d front' =>
          exact absurd ⟨after', hp.symm⟩ (hfirst 0 (by simp))
    | none =>
      -- the part does not stand here, so place `i` of the rest is place `i + 1` of the text
      rw [isPrefixOf?_eq_none_iff] at hp
      rw [map_cons_eq_some_iff]
      constructor
      · intro h
        obtain ⟨more, rfl, hcut⟩ := h
        obtain ⟨rfl, hfirst⟩ := ih.1 hcut
        refine ⟨rfl, ?_⟩
        intro i hi
        cases i with
        | zero => exact hp
        | succ i => exact hfirst i (by simpa using hi)
      · intro h
        obtain ⟨ht, hfirst⟩ := h
        cases front with
        | nil => exact absurd ⟨after, by simpa using ht.symm⟩ hp
        | cons d more =>
          simp only [List.cons_append, List.cons.injEq] at ht
          obtain ⟨rfl, ht⟩ := ht
          exact ⟨more, rfl, ih.2 ⟨ht, fun i hi => hfirst (i + 1) (by simpa using hi)⟩⟩

/-- No cut is made exactly when the part stands nowhere in the text. -/
theorem cut?_eq_none_iff {part t : Text} : cut? part t = none ↔ ¬ part <:+: t := by
  -- a part stands in a text at its front or in its rest
  induction t with
  | nil => simp [cut?, isPrefixOf?_eq_none_iff]
  | cons c rest ih =>
    rw [cut?, List.infix_cons_iff]
    cases hp : part.isPrefixOf? (c :: rest) with
    | some after =>
      have hpre : part <+: c :: rest := ⟨after, ((isPrefixOf?_eq_some_iff _ _ _).1 hp).symm⟩
      simp [hpre]
    | none =>
      rw [isPrefixOf?_eq_none_iff] at hp
      simp [hp, ih]

/-- A part stands somewhere in the text exactly if it is an infix of it. -/
theorem occurs_iff {part t : Text} : occurs part t = true ↔ part <:+: t := by
  induction t with
  | nil => simp [occurs]
  | cons c rest ih =>
    rw [occurs, Bool.or_eq_true, List.isPrefixOf_iff_prefix, ih, List.infix_cons_iff]

/-- A cut at a character leaves no such character in front. -/
theorem cut?_singleton_iff {c : Char} {t front after : Text} :
    cut? [c] t = some (front, after) ↔ t = front ++ c :: after ∧ c ∉ front := by
  rw [cut?_eq_some_iff (by simp)]
  constructor
  · intro h
    obtain ⟨rfl, hfirst⟩ := h
    refine ⟨by simp, fun hmem => ?_⟩
    -- such a character in front would have been an earlier place for the cut
    obtain ⟨left, right, rfl⟩ := List.append_of_mem hmem
    refine hfirst left.length (by simp) ⟨right ++ [c] ++ after, ?_⟩
    simp
  · intro h
    obtain ⟨rfl, hmem⟩ := h
    refine ⟨by simp, ?_⟩
    intro i hi h
    obtain ⟨more, hmore⟩ := h
    rw [List.drop_append_of_le_length (by omega), List.drop_eq_getElem_cons hi] at hmore
    simp only [List.cons_append, List.nil_append, List.cons.injEq] at hmore
    exact hmem (hmore.1 ▸ List.getElem_mem hi)

/-- What stands before a character is all that comes without it. -/
theorem before_singleton (c : Char) (t : Text) : before [c] t = t.takeWhile (· ≠ c) := by
  unfold before
  split
  · next front after hcut =>
    obtain ⟨rfl, hfront⟩ := cut?_singleton_iff.1 hcut
    have hall : ∀ d ∈ front, decide (d ≠ c) = true := by
      intro d hd
      exact decide_eq_true (ne_of_mem_of_not_mem hd hfront)
    rw [List.takeWhile_append_of_pos hall]
    simp
  · next hcut =>
    rw [cut?_eq_none_iff, List.singleton_infix_iff] at hcut
    symm
    rw [List.takeWhile_eq_self_iff]
    intro d hd
    exact decide_eq_true (ne_of_mem_of_not_mem hd hcut)

/-! ## Borders -/

/-- A text between two borders is the borders around it. -/
theorem enclosed?_eq_some_iff {lead t inner : Text} {close : Char} :
    enclosed? lead close t = some inner ↔ t = lead ++ inner ++ [close] := by
  unfold enclosed?
  constructor
  · intro h
    split at h
    -- the border at the front is read off first, and then the one at the end
    · next rest hrest =>
      rw [isPrefixOf?_eq_some_iff] at hrest
      split at h
      · next hlast =>
        obtain ⟨front, rfl⟩ := List.getLast?_eq_some_iff.1 hlast
        simp only [List.dropLast_concat, Option.some.injEq] at h
        rw [hrest, h, List.append_assoc]
      · simp at h
    · simp at h
  · intro h
    have hrest : lead.isPrefixOf? t = some (inner ++ [close]) := by
      rw [isPrefixOf?_eq_some_iff, h, List.append_assoc]
    simp [hrest]

/-! ## Final line feeds -/

/-- A final line feed is taken off. -/
theorem chomp_concat (t : Text) : chomp (t ++ ['\n']) = t := by
  simp [chomp]

/-- A text that does not end in a line feed is left as it is. -/
theorem chomp_of_getLast?_ne {t : Text} (h : t.getLast? ≠ some '\n') : chomp t = t :=
  if_neg h

/-- A text has a final line feed, or it is left as it is. -/
theorem eq_chomp_or (t : Text) :
    t = chomp t ++ ['\n'] ∨ (t.getLast? ≠ some '\n' ∧ chomp t = t) := by
  -- by the last character
  by_cases h : t.getLast? = some '\n'
  · obtain ⟨front, rfl⟩ := List.getLast?_eq_some_iff.1 h
    rw [chomp_concat]
    exact .inl rfl
  · exact .inr ⟨h, chomp_of_getLast?_ne h⟩

/-- Chomping takes something off the end alone. -/
theorem chomp_prefix (t : Text) : chomp t <+: t := by
  rcases eq_chomp_or t with h | ⟨-, h⟩
  · exact ⟨['\n'], h.symm⟩
  · rw [h]

/-- A text without its final line feed has lost at most that. -/
theorem chomp_eq_iff {t u : Text} (hu : u.getLast? ≠ some '\n') :
    chomp t = u ↔ t = u ∨ t = u ++ ['\n'] := by
  constructor
  · rintro rfl
    rcases eq_chomp_or t with h | ⟨-, h⟩
    · exact .inr h
    · exact .inl h.symm
  · intro h
    rcases h with rfl | rfl
    · exact chomp_of_getLast?_ne hu
    · exact chomp_concat u

/-- The same for a text that ends in a character that is no line feed. -/
theorem chomp_eq_append_iff {t front : Text} {c : Char} (hc : c ≠ '\n') :
    chomp t = front ++ [c] ↔ t = front ++ [c] ∨ t = front ++ [c, '\n'] := by
  rw [chomp_eq_iff (by simpa using hc), List.append_assoc]
  rfl

end UtilityClass.Text
