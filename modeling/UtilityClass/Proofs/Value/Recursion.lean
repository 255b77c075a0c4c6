import UtilityClass.Proofs.Value.Address
import UtilityClass.Value.Canonical

/-!
# The recursion of canonical forms

`canonicalWithin` brings a value into canonical form the way it is said: a value with addresses is
cut, and each gap is brought into canonical form by the same rule.  Nothing in a gap with a `url(`
gets smaller by that, so such a gap is taken up again and again.

## Key results

- `canonicalWithin_gap`: a gap is done with in one step, or never
- `canonicalWithin_eq`: two nested calls do, or no number does
- `canonical_eq_error_iff`: there is no canonical form exactly if the recursion does not end
- `canonical_eq_error_iff_unclosed`: that is so exactly for values with an unclosed `url(`
-/

namespace UtilityClass.Value

/-- A piece of a value in its written order: an address stays, a gap is left to `onGap`. -/
def Piece.rewrite (onGap : Text → Option Text) : Piece → Option Text
  | gap t => onGap t
  | address t => some t

/-- The canonical form of a value, if calls nested at most `depth` deep reach it.  The text between
    addresses is no root: it keeps its outer blanks and is no lone custom property. -/
def canonicalWithin : Nat → Bool → Text → Option Text
  | 0, _, _ => none
  | depth + 1, isRoot, t =>
    if isRoot = true ∧ ['-', '-'] <+: t then some ("var(".toList ++ t ++ [')'])
    else if Text.occurs addressLead t then
      let written := (pieces t).filter fun piece : Piece => piece.text ≠ []
      (written.mapM (Piece.rewrite (canonicalWithin depth false))).map List.flatten
    else some (spaceOperators (if isRoot then Text.strip (spaced t) else spaced t))

/-! ## Gaps -/

/-- A text without an address is one gap. -/
theorem pieces_of_cutAddress?_eq_none {t : Text} (h : cutAddress? t = none) :
    pieces t = [.gap t] := by
  rw [pieces]
  split
  · rfl
  · next hsome => exact absurd (h.symm.trans hsome) (by simp)

/-- A gap with a lead in it is taken up again by every call. -/
theorem canonicalWithin_gap_eq_none {gap : Text} (hcut : cutAddress? gap = none)
    (hlead : addressLead <:+: gap) (depth : Nat) : canonicalWithin depth false gap = none := by
  -- the gap is the only piece of itself, so a call takes a nested call for the same gap
  induction depth with
  | zero => rfl
  | succ depth ih =>
    have hne : gap ≠ [] := by
      intro hnil
      rw [hnil] at hlead
      simp [addressLead_eq] at hlead
    rw [canonicalWithin, pieces_of_cutAddress?_eq_none hcut, Text.occurs_iff.2 hlead]
    simp [Piece.text, Piece.rewrite, hne, ih]

/-- A gap without a lead is done with at once. -/
theorem canonicalWithin_gap_of_not_lead {gap : Text} (hlead : ¬ addressLead <:+: gap)
    (depth : Nat) :
    canonicalWithin (depth + 1) false gap = some (spaceOperators (spaced gap)) := by
  have hoccurs : Text.occurs addressLead gap = false := by
    rw [← Bool.not_eq_true, Text.occurs_iff]
    exact hlead
  rw [canonicalWithin, hoccurs]
  simp

/-- A gap is done with in one step, or never. -/
theorem canonicalWithin_gap {gap : Text} (hcut : cutAddress? gap = none) (depth : Nat) :
    canonicalWithin (depth + 1) false gap = (canonicalGap gap).toOption := by
  unfold canonicalGap
  by_cases hlead : addressLead <:+: gap
  · rw [canonicalWithin_gap_eq_none hcut hlead, if_pos (Text.occurs_iff.2 hlead)]
    rfl
  · rw [canonicalWithin_gap_of_not_lead hlead, if_neg]
    · rfl
    · rw [Text.occurs_iff]; exact hlead

/-! ## Values -/

/-- Rewriting the pieces of a value one by one is bringing them into canonical form, if that is
    what happens to each gap.  Leaving out empty pieces makes no difference. -/
theorem mapM_rewrite_pieces {onGap : Text → Option Text} {ps : List Piece}
    (h : ∀ gap, .gap gap ∈ ps → onGap gap = (canonicalGap gap).toOption) :
    ((ps.filter fun piece : Piece => piece.text ≠ []).mapM (Piece.rewrite onGap)).map List.flatten =
      (canonicalPieces ps).toOption := by
  -- piece by piece, and both sides give up at the first gap that gives up
  induction ps with
  | nil => rfl
  | cons piece more ih =>
    have hmore := ih fun gap hgap => h gap (List.mem_cons_of_mem _ hgap)
    have hpiece : piece.rewrite onGap = piece.canonical.toOption := by
      cases piece with
      | gap t => exact h t List.mem_cons_self
      | address t => rfl
    have hcons : (canonicalPieces (piece :: more)).toOption =
        piece.canonical.toOption.bind fun front =>
          (canonicalPieces more).toOption.map fun rest => front ++ rest := by
      rw [canonicalPieces]
      cases piece.canonical <;> cases canonicalPieces more <;> rfl
    rw [hcons, ← hmore, ← hpiece]
    by_cases hempty : piece.text = []
    · -- an empty piece is left out on one side and adds nothing on the other
      have hnil : piece.rewrite onGap = some [] := by
        rw [hpiece]
        cases piece with
        | gap t => obtain rfl : t = [] := hempty; rfl
        | address t => obtain rfl : t = [] := hempty; rfl
      rw [List.filter_cons_of_neg (by simpa using hempty), hnil]
      simp only [Option.bind_some, List.nil_append, Option.map_id']
    · rw [List.filter_cons_of_pos (by simpa using hempty), List.mapM_cons]
      -- a piece that is not empty is rewritten on both sides
      cases piece.rewrite onGap with
      | none => rfl
      | some front =>
        cases (more.filter fun piece : Piece => piece.text ≠ []).mapM (Piece.rewrite onGap) <;> rfl

/-- Two nested calls do, or no number does. -/
theorem canonicalWithin_eq (depth : Nat) (t : Text) :
    canonicalWithin (depth + 2) true t = (canonical t).toOption := by
  have hgaps : ∀ gap, .gap gap ∈ pieces t →
      canonicalWithin (depth + 1) false gap = (canonicalGap gap).toOption :=
    fun gap hgap => canonicalWithin_gap (cutAddress?_of_gap hgap) depth
  rw [canonicalWithin, canonical, mapM_rewrite_pieces hgaps]
  -- by the three branches of the definition
  by_cases hdashes : ['-', '-'] <+: t
  · simp [hdashes, Except.toOption]
  · by_cases hlead : Text.occurs addressLead t = true
    · simp [hdashes, hlead]
    · simp [hdashes, hlead, Except.toOption]

/-- What few nested calls reach is reached by more. -/
private theorem mapM_mono {f g : Piece → Option Text} (h : ∀ piece r, f piece = some r →
    g piece = some r) {ps : List Piece} {rs : List Text} (hrs : ps.mapM f = some rs) :
    ps.mapM g = some rs := by
  -- if the first piece is rewritten, and then the others, the same happens with more calls
  induction ps generalizing rs with
  | nil => exact hrs
  | cons piece more ih =>
    rw [List.mapM_cons] at hrs ⊢
    cases hpiece : f piece with
    | none => rw [hpiece] at hrs; exact nomatch hrs
    | some first =>
      cases hmore : more.mapM f with
      | none => rw [hpiece, hmore] at hrs; exact nomatch hrs
      | some others =>
        rw [hpiece, hmore] at hrs
        rw [h piece first hpiece, ih hmore]
        exact hrs

/-- What some number of nested calls reaches is reached by one more. -/
theorem canonicalWithin_succ {depth : Nat} {isRoot : Bool} {t r : Text}
    (h : canonicalWithin depth isRoot t = some r) :
    canonicalWithin (depth + 1) isRoot t = some r := by
  -- a nested call is for another text, which is no root
  induction depth generalizing isRoot t r with
  | zero => exact nomatch h
  | succ depth ih =>
    rw [canonicalWithin] at h ⊢
    split at h
    · next hroot => rw [if_pos hroot]; exact h
    · next hroot =>
      rw [if_neg hroot]
      split at h
      · next hlead =>
        rw [if_pos hlead]
        obtain ⟨rs, hrs, rfl⟩ := Option.map_eq_some_iff.1 h
        have hmore : ∀ piece r, Piece.rewrite (canonicalWithin depth false) piece = some r →
            Piece.rewrite (canonicalWithin (depth + 1) false) piece = some r := by
          intro piece r hr
          cases piece with
          | gap gap => exact ih hr
          | address address => exact hr
        exact Option.map_eq_some_iff.2 ⟨rs, mapM_mono hmore hrs, rfl⟩
      · next hlead => rw [if_neg hlead]; exact h

/-- A value has a canonical form exactly if some number of nested calls reaches it. -/
theorem canonical_eq_ok_iff {t r : Text} :
    canonical t = .ok r ↔ ∃ depth, canonicalWithin depth true t = some r := by
  constructor
  · intro h
    refine ⟨2, ?_⟩
    rw [canonicalWithin_eq 0, h]
    rfl
  · intro h
    -- two more calls do no harm, and two calls already decide
    obtain ⟨depth, hdepth⟩ := h
    have htwo := canonicalWithin_succ (canonicalWithin_succ hdepth)
    rw [canonicalWithin_eq] at htwo
    cases hcan : canonical t with
    | error fault => rw [hcan] at htwo; exact nomatch htwo
    | ok r' => rw [hcan] at htwo; exact congrArg _ (Option.some.inj htwo)

/-- There is no canonical form exactly if the recursion does not end. -/
theorem canonical_eq_error_iff {t : Text} :
    (∃ fault, canonical t = .error fault) ↔ ∀ depth, canonicalWithin depth true t = none := by
  constructor
  · intro h depth
    obtain ⟨fault, hfault⟩ := h
    rw [Option.eq_none_iff_forall_ne_some]
    intro r hr
    rw [canonical_eq_ok_iff.2 ⟨depth, hr⟩] at hfault
    exact nomatch hfault
  · intro h
    cases hcan : canonical t with
    | error fault => exact ⟨fault, rfl⟩
    | ok r =>
      obtain ⟨depth, hdepth⟩ := canonical_eq_ok_iff.1 hcan
      rw [h depth] at hdepth
      exact nomatch hdepth

/-- Pieces have no canonical form exactly if one of the gaps holds a lead. -/
theorem canonicalPieces_eq_error_iff {ps : List Piece} :
    (∃ fault, canonicalPieces ps = .error fault) ↔
      ∃ gap, .gap gap ∈ ps ∧ addressLead <:+: gap := by
  -- the first fault is that of the first piece, or comes from the others
  induction ps with
  | nil => simp [canonicalPieces]
  | cons piece more ih =>
    have hpiece : (∃ fault, piece.canonical = .error fault) ↔
        ∃ gap, piece = .gap gap ∧ addressLead <:+: gap := by
      cases piece with
      | gap t =>
        rw [Piece.canonical, canonicalGap]
        by_cases hlead : addressLead <:+: t
        · rw [if_pos (Text.occurs_iff.2 hlead)]
          exact iff_of_true ⟨.unclosedAddress, rfl⟩ ⟨t, rfl, hlead⟩
        · rw [if_neg (by rwa [Text.occurs_iff])]
          simp [hlead]
      | address t => simp [Piece.canonical]
    have hcons : (∃ fault, canonicalPieces (piece :: more) = .error fault) ↔
        (∃ fault, piece.canonical = .error fault) ∨
          ∃ fault, canonicalPieces more = .error fault := by
      rw [canonicalPieces]
      cases piece.canonical <;> cases canonicalPieces more <;> simp
    rw [hcons, hpiece, ih]
    simp only [List.mem_cons, or_and_right, exists_or, eq_comm (a := piece)]

/-- There is no canonical form exactly for values with an unclosed `url(` that do not begin like a
    custom property. -/
theorem canonical_eq_error_iff_unclosed {t : Text} :
    (∃ fault, canonical t = .error fault) ↔ ¬ ['-', '-'] <+: t ∧ Unclosed t := by
  unfold canonical
  by_cases hdashes : ['-', '-'] <+: t
  · simp [hdashes]
  -- without the dashes the recursion ends in gaps, of which one with a lead is at fault
  · have hpre : ['-', '-'].isPrefixOf t = false := by
      rw [← Bool.not_eq_true, List.isPrefixOf_iff_prefix]
      exact hdashes
    rw [hpre, if_neg Bool.false_ne_true]
    by_cases hlead : Text.occurs addressLead t = true
    · rw [if_pos hlead, canonicalPieces_eq_error_iff, exists_gap_iff_unclosed]
      exact (and_iff_right hdashes).symm
    · rw [if_neg hlead]
      have hclosed : ¬ Unclosed t := by
        intro hunclosed
        obtain ⟨front, rest, rfl, -⟩ := hunclosed
        apply hlead
        rw [Text.occurs_iff]
        exact ⟨front, rest, rfl⟩
      simp [hclosed]

end UtilityClass.Value
