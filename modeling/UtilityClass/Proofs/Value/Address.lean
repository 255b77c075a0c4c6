import UtilityClass.Proofs.Text.Cut
import UtilityClass.Value.Address

/-!
# Unclosed addresses

A `url(` is *unclosed* when its line holds no `)` behind it.  An unclosed one is part of no
address, so it is left in a gap; and whatever `url(` is left in a gap is unclosed.

## Key results

- `closeAddress?_eq_some_iff` / `closeAddress?_eq_none_iff`: where an address closes
- `join_pieces`: the pieces of a value, one after the other, are the value
- `unclosed_iff_of_cutAddress?`: cutting out an address keeps what is unclosed
- `exists_gap_iff_unclosed`: a gap holds a `url(` exactly if the value holds an unclosed one
- `cutAddress?_of_gap`: a gap holds no address
-/

namespace UtilityClass.Value

/-- Whether a text holds a `url(` without a `)` behind it on its line. -/
def Unclosed (t : Text) : Prop :=
  ∃ front rest, t = front ++ addressLead ++ rest ∧ ')' ∉ rest.takeWhile (· ≠ '\n')

/-! ## Closing an address -/

/-- An address closes at the first `)` if no line feed comes first. -/
theorem closeAddress?_eq_some_iff {t inner after : Text} :
    closeAddress? t = some (inner, after) ↔
      ∃ x, inner = x ++ [')'] ∧ t = x ++ ')' :: after ∧ ')' ∉ x ∧ '\n' ∉ x := by
  -- over the text, for any inner text: at each character an address closes, breaks off or goes on
  induction t generalizing inner with
  | nil => simp [closeAddress?]
  | cons c rest ih =>
    rw [closeAddress?]
    by_cases hclose : c = ')'
    · subst hclose
      rw [if_pos rfl]
      constructor
      · intro h
        simp only [Option.some.injEq, Prod.mk.injEq] at h
        obtain ⟨rfl, rfl⟩ := h
        exact ⟨[], by simp⟩
      · intro h
        obtain ⟨x, rfl, ht, hx, -⟩ := h
        cases x with
        | nil => simp at ht; simp [ht]
        -- a longer inner text would hold the parenthesis that closes it
        | cons d more => simp at ht hx; exact absurd ht.1 hx.1
    · rw [if_neg hclose]
      by_cases hline : c = '\n'
      · subst hline
        simp only [↓reduceIte, reduceCtorEq, false_iff]
        intro h
        obtain ⟨x, -, ht, -, hx⟩ := h
        cases x with
        | nil => simp at ht
        -- nor may the line feed be in it
        | cons d more => simp at ht hx; exact hx.1 ht.1
      · rw [if_neg hline, Text.map_cons_eq_some_iff]
        constructor
        · intro h
          obtain ⟨more, rfl, hmore⟩ := h
          obtain ⟨x, rfl, rfl, hx, hx'⟩ := ih.1 hmore
          refine ⟨c :: x, rfl, rfl, ?_, ?_⟩
          · simpa using ⟨Ne.symm hclose, hx⟩
          · simpa using ⟨Ne.symm hline, hx'⟩
        · intro h
          -- the first character goes to the inner text, and the rest closes as it stands there
          obtain ⟨x, rfl, ht, hx, hx'⟩ := h
          cases x with
          | nil => simp at ht; exact absurd ht.1 hclose
          | cons d more =>
            simp only [List.cons_append, List.cons.injEq] at ht
            obtain ⟨rfl, rfl⟩ := ht
            simp only [List.mem_cons, not_or] at hx hx'
            exact ⟨more ++ [')'], rfl, ih.2 ⟨more, rfl, rfl, hx.2, hx'.2⟩⟩

/-- An address does not close if there is no `)` on its line. -/
theorem closeAddress?_eq_none_iff {t : Text} :
    closeAddress? t = none ↔ ')' ∉ t.takeWhile (· ≠ '\n') := by
  induction t with
  | nil => simp [closeAddress?]
  | cons c rest ih =>
    rw [closeAddress?]
    by_cases hclose : c = ')'
    · subst hclose
      simp
    · by_cases hline : c = '\n'
      · subst hline
        simp
      · simp [hclose, hline, ih, Ne.symm hclose]

/-- An address begins with its lead and closes behind it. -/
theorem addressAt?_eq_some_iff {t address after : Text} :
    addressAt? t = some (address, after) ↔
      ∃ x, address = addressLead ++ x ++ [')'] ∧ t = addressLead ++ x ++ ')' :: after ∧
        ')' ∉ x ∧ '\n' ∉ x := by
  unfold addressAt?
  constructor
  · intro h
    split at h
    · next rest hrest =>
      rw [Text.isPrefixOf?_eq_some_iff] at hrest
      -- what was found behind the lead is the inner text with its parenthesis
      obtain ⟨⟨inner, after'⟩, hclose, heq⟩ := Option.map_eq_some_iff.1 h
      simp only [Prod.mk.injEq] at heq
      obtain ⟨rfl, rfl⟩ := heq
      obtain ⟨x, rfl, rfl, hx, hx'⟩ := closeAddress?_eq_some_iff.1 hclose
      exact ⟨x, by simp, by simp [hrest], hx, hx'⟩
    · exact nomatch h
  · intro h
    obtain ⟨x, rfl, rfl, hx, hx'⟩ := h
    have hlead : addressLead.isPrefixOf? (addressLead ++ x ++ ')' :: after) =
        some (x ++ ')' :: after) := by
      rw [Text.isPrefixOf?_eq_some_iff, List.append_assoc]
    have hclose : closeAddress? (x ++ ')' :: after) = some (x ++ [')'], after) :=
      closeAddress?_eq_some_iff.2 ⟨x, rfl, rfl, hx, hx'⟩
    rw [hlead]
    simp [hclose]

/-- No address begins here exactly if there is no lead or it is not closed. -/
theorem addressAt?_eq_none_iff {t : Text} :
    addressAt? t = none ↔ ∀ rest, t = addressLead ++ rest → closeAddress? rest = none := by
  unfold addressAt?
  constructor
  · intro h rest hrest
    rw [(Text.isPrefixOf?_eq_some_iff _ _ _).2 hrest] at h
    simpa using h
  · intro h
    split
    · next rest hrest =>
      rw [Text.isPrefixOf?_eq_some_iff] at hrest
      simp [h rest hrest]
    · rfl

/-! ## Unclosed leads -/

/-- The lead of an address, character by character. -/
theorem addressLead_eq : addressLead = ['u', 'r', 'l', '('] := rfl

/-- A lead does not overlap a lead behind it: it stands in front of it or not at all. -/
theorem lead_prefix_append_iff {front more : Text} (hne : front ≠ []) :
    addressLead <+: front ++ (addressLead ++ more) ↔ addressLead <+: front := by
  by_cases hlen : addressLead.length ≤ front.length
  · exact Text.prefix_append_iff _ hlen
  · -- a shorter text would have to end in the middle of a lead
    rw [addressLead_eq] at hlen ⊢
    match front, hne with
    -- fronts of one, two and three characters, none of which is followed by the rest of a lead
    | [a], _ | [a, b], _ | [a, b, c], _ => simp
    | _ :: _ :: _ :: _ :: _, _ => simp at hlen

/-- The empty text has no lead in it that could be unclosed. -/
theorem not_unclosed_nil : ¬ Unclosed [] := by
  intro h
  obtain ⟨front, rest, ht, -⟩ := h
  simp [addressLead_eq] at ht

/-- An unclosed lead begins here or further on. -/
theorem unclosed_cons_iff {c : Char} {t : Text} :
    Unclosed (c :: t) ↔
      (addressLead <+: c :: t ∧ addressAt? (c :: t) = none) ∨ Unclosed t := by
  constructor
  · intro h
    obtain ⟨front, rest, ht, hopen⟩ := h
    -- a lead at the front is unclosed if no address begins there; any other stands in the rest
    cases front with
    | nil =>
      rw [List.nil_append] at ht
      refine .inl ⟨⟨rest, ht.symm⟩, addressAt?_eq_none_iff.2 ?_⟩
      intro rest' hrest'
      have hsame : rest = rest' := List.append_cancel_left (ht.symm.trans hrest')
      rw [← hsame]
      exact closeAddress?_eq_none_iff.2 hopen
    | cons d more =>
      simp only [List.cons_append, List.cons.injEq] at ht
      exact .inr ⟨more, rest, ht.2, hopen⟩
  · intro h
    rcases h with h | h
    · obtain ⟨⟨rest, hrest⟩, hnone⟩ := h
      have hopen := addressAt?_eq_none_iff.1 hnone rest hrest.symm
      exact ⟨[], rest, hrest.symm, closeAddress?_eq_none_iff.1 hopen⟩
    · obtain ⟨front, rest, rfl, hopen⟩ := h
      exact ⟨c :: front, rest, rfl, hopen⟩

/-- Nothing is unclosed in a text that a `)` closes on its line, short of what follows. -/
theorem unclosed_append_close_iff {x after : Text} (hclose : ')' ∉ x) (hline : '\n' ∉ x) :
    Unclosed (x ++ ')' :: after) ↔ Unclosed after := by
  -- over the text in front of the parenthesis; without it a lead would have to begin at a `)`
  induction x with
  | nil =>
    rw [List.nil_append, unclosed_cons_iff]
    simp [addressLead_eq]
  | cons c more ih =>
    simp only [List.mem_cons, not_or] at hclose hline
    rw [List.cons_append, unclosed_cons_iff, ih hclose.2 hline.2]
    refine ⟨fun h => h.resolve_left ?_, .inr⟩
    intro h
    obtain ⟨hlead, hnone⟩ := h
    -- the lead stands in front of the `)`, which then closes the address
    have hfits : addressLead.length ≤ (c :: more).length := by
      apply Nat.le_of_not_lt
      intro hshort
      have hmem : ')' ∈ addressLead := by
        have hpos : (c :: more).length < (c :: more ++ ')' :: after).length := by simp
        have hget := hlead.getElem hshort
        have hval : (c :: (more ++ ')' :: after))[(c :: more).length] = ')' := by simp
        rw [hval] at hget
        exact hget ▸ List.getElem_mem hshort
      exact absurd hmem (by decide)
    rw [← List.cons_append, Text.prefix_append_iff _ hfits] at hlead
    obtain ⟨y, hy⟩ := hlead
    have hsome : addressAt? (c :: (more ++ ')' :: after)) =
        some (addressLead ++ y ++ [')'], after) := by
      refine addressAt?_eq_some_iff.2 ⟨y, rfl, ?_, ?_, ?_⟩
      · rw [hy, List.cons_append]
      · intro hmem
        have hmem' : ')' ∈ c :: more := hy ▸ List.mem_append_right _ hmem
        exact absurd hmem' (by simp [hclose])
      · intro hmem
        have hmem' : '\n' ∈ c :: more := hy ▸ List.mem_append_right _ hmem
        exact absurd hmem' (by simp [hline])
    rw [hnone] at hsome
    exact nomatch hsome

/-! ## The leftmost address -/

/-- No address stands in a text exactly if none begins at its front and none stands in its rest. -/
theorem cutAddress?_cons_eq_none_iff {c : Char} {rest : Text} :
    cutAddress? (c :: rest) = none ↔ addressAt? (c :: rest) = none ∧ cutAddress? rest = none := by
  rw [cutAddress?]
  cases addressAt? (c :: rest) <;> simp

/-- The leftmost address begins here or, if none does, further on. -/
theorem cutAddress?_cons_cases {c : Char} {rest front address after : Text}
    (h : cutAddress? (c :: rest) = some (front, address, after)) :
    (front = [] ∧ addressAt? (c :: rest) = some (address, after)) ∨
      ∃ more, front = c :: more ∧ addressAt? (c :: rest) = none ∧
        cutAddress? rest = some (more, address, after) := by
  rw [cutAddress?] at h
  cases hat : addressAt? (c :: rest) with
  | some found =>
    rw [hat] at h
    simp only [Option.some.injEq, Prod.mk.injEq] at h
    obtain ⟨rfl, rfl, rfl⟩ := h
    exact .inl ⟨rfl, rfl⟩
  | none =>
    rw [hat] at h
    obtain ⟨⟨more, address', after'⟩, hcut, heq⟩ := Option.map_eq_some_iff.1 h
    simp only [Prod.mk.injEq] at heq
    obtain ⟨rfl, rfl, rfl⟩ := heq
    exact .inr ⟨more, rfl, rfl, hcut⟩

/-- What is cut out is an address. -/
theorem address_of_cutAddress? {t front address after : Text}
    (h : cutAddress? t = some (front, address, after)) :
    ∃ x, address = addressLead ++ x ++ [')'] ∧ ')' ∉ x ∧ '\n' ∉ x := by
  induction t generalizing front with
  | nil => simp [cutAddress?] at h
  | cons c rest ih =>
    rcases cutAddress?_cons_cases h with ⟨-, hat⟩ | ⟨more, -, -, hcut⟩
    · obtain ⟨x, hx, -, hopen⟩ := addressAt?_eq_some_iff.1 hat
      exact ⟨x, hx, hopen⟩
    · exact ih hcut

/-- Cutting at an address takes it out and nothing else. -/
theorem eq_of_cutAddress? {t front address after : Text}
    (h : cutAddress? t = some (front, address, after)) : t = front ++ address ++ after := by
  induction t generalizing front with
  | nil => exact nomatch h
  -- by where the leftmost address begins
  | cons c rest ih =>
    rcases cutAddress?_cons_cases h with ⟨rfl, hat⟩ | ⟨more, rfl, -, hcut⟩
    · obtain ⟨x, rfl, ht, -⟩ := addressAt?_eq_some_iff.1 hat
      simp [ht]
    · rw [ih hcut, List.cons_append, List.cons_append]

/-- The pieces of a value, one after the other, are the value. -/
theorem join_pieces (t : Text) : (pieces t).flatMap Piece.text = t := by
  -- the two equations of `pieces`: no address is left, or one is cut out
  fun_induction pieces t with
  | case1 t h => simp [Piece.text]
  | case2 t front address after h ih => simp [Piece.text, ih, eq_of_cutAddress? h]

/-- What stands before the leftmost address holds no address. -/
theorem cutAddress?_front {t front address after : Text}
    (h : cutAddress? t = some (front, address, after)) : cutAddress? front = none := by
  induction t generalizing front with
  | nil => simp [cutAddress?] at h
  | cons c rest ih =>
    rcases cutAddress?_cons_cases h with ⟨rfl, -⟩ | ⟨more, rfl, hat, hcut⟩
    -- an address at the front leaves the empty text before it
    · rfl
    · refine cutAddress?_cons_eq_none_iff.2 ⟨?_, ih hcut⟩
      rw [addressAt?_eq_none_iff] at hat ⊢
      intro behind hbehind
      rw [Option.eq_none_iff_forall_ne_some]
      intro found hfound
      -- an address that closes in front would close in the whole text as well
      obtain ⟨x, -, rfl, hx⟩ := closeAddress?_eq_some_iff.1 hfound
      have ht : c :: rest = addressLead ++ (x ++ ')' :: (found.2 ++ address ++ after)) := by
        rw [eq_of_cutAddress? hcut, ← List.cons_append, ← List.cons_append, hbehind]
        simp
      have hsome : closeAddress? (x ++ ')' :: (found.2 ++ address ++ after)) =
          some (x ++ [')'], found.2 ++ address ++ after) :=
        closeAddress?_eq_some_iff.2 ⟨x, rfl, rfl, hx⟩
      rw [hat _ ht] at hsome
      simp at hsome

/-! ## Gaps -/

/-- Cutting out the leftmost address keeps what is unclosed: every lead in front of it is. -/
theorem unclosed_iff_of_cutAddress? {t front address after : Text}
    (h : cutAddress? t = some (front, address, after)) :
    Unclosed t ↔ addressLead <:+: front ∨ Unclosed after := by
  induction t generalizing front with
  | nil => simp [cutAddress?] at h
  | cons c rest ih =>
    rcases cutAddress?_cons_cases h with ⟨rfl, hat⟩ | ⟨more, rfl, hat, hcut⟩
    -- the address at the front closes, so what is unclosed stands behind it
    · obtain ⟨x, -, ht, hx, hx'⟩ := addressAt?_eq_some_iff.1 hat
      have hlead : ¬ addressLead <:+: [] := by simp [addressLead_eq]
      have hclose : ')' ∉ addressLead ++ x := by simp [hx, addressLead_eq]
      have hline : '\n' ∉ addressLead ++ x := by simp [hx', addressLead_eq]
      rw [ht, unclosed_append_close_iff hclose hline]
      simp [hlead]
    · rw [unclosed_cons_iff, ih hcut, List.infix_cons_iff, or_assoc]
      apply or_congr_left
      -- the lead at the front does not reach into the address
      obtain ⟨x, haddress, -⟩ := address_of_cutAddress? hcut
      have ht : c :: rest = c :: more ++ (addressLead ++ (x ++ ')' :: after)) := by
        rw [eq_of_cutAddress? hcut, haddress]
        simp
      rw [ht, lead_prefix_append_iff (List.cons_ne_nil _ _), ← ht]
      exact and_iff_left hat

/-- A text without an address is unclosed wherever it holds a lead. -/
theorem unclosed_iff_of_cutAddress?_eq_none {t : Text} (h : cutAddress? t = none) :
    Unclosed t ↔ addressLead <:+: t := by
  induction t with
  | nil => simp [not_unclosed_nil, addressLead_eq]
  | cons c rest ih =>
    obtain ⟨hat, hcut⟩ := cutAddress?_cons_eq_none_iff.1 h
    rw [unclosed_cons_iff, ih hcut, List.infix_cons_iff]
    exact or_congr_left (and_iff_left hat)

/-- A gap holds no address. -/
theorem cutAddress?_of_gap {t gap : Text} (h : .gap gap ∈ pieces t) : cutAddress? gap = none := by
  fun_induction pieces t with
  | case1 t hnone =>
    -- a value without an address is one gap
    simp only [List.mem_singleton, Piece.gap.injEq] at h
    rw [h]
    exact hnone
  | case2 t front address after hcut ih =>
    simp only [List.mem_cons, Piece.gap.injEq, reduceCtorEq, false_or] at h
    rcases h with h | h
    · rw [h]
      exact cutAddress?_front hcut
    · exact ih h

/-- A gap holds a lead exactly if the value holds an unclosed one. -/
theorem exists_gap_iff_unclosed (t : Text) :
    (∃ gap, .gap gap ∈ pieces t ∧ addressLead <:+: gap) ↔ Unclosed t := by
  fun_induction pieces t with
  | case1 t hnone => simp [unclosed_iff_of_cutAddress?_eq_none hnone]
  | case2 t front address after hcut ih =>
    -- the front is the one gap that is new, and the address is none
    rw [unclosed_iff_of_cutAddress? hcut, ← ih]
    simp [or_and_right, exists_or]

end UtilityClass.Value
