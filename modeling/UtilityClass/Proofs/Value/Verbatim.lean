import UtilityClass.Proofs.Value.Lookahead
import UtilityClass.Proofs.Value.Recursion

/-!
# Addresses are kept

Bringing a value into canonical form leaves its addresses as they are, and cutting the canonical
form finds the same addresses again.  Rewriting a gap moves and removes nothing but spaces,
underscores, escapes and the operators of arithmetic, and an address opens with none of these: so no
`url(` comes about in a gap, and no address reaches into a gap or out of one.

## Key results

- `infix_of_infix_spaced` / `infix_of_infix_spaceOperators`: what stands in a rewritten text stood
  in the text before
- `cutAddress?_append_address`: the leftmost address is the first one that nothing in front opens
- `pieces_flatMap_mapGap`: a value is cut as before if no gap is rewritten into an opening
- `canonical_keeps_addresses`: the recursion ends exactly if no gap holds a `url(`, and then the
  addresses of the value are those of its canonical form
-/

namespace UtilityClass.Value

/-! ## Words of rewritten texts -/

/-- A character that a word has not does not help the word to stand in a text. -/
theorem infix_cons_iff_of_not_mem {w t : Text} {c : Char} (hc : c ∉ w) :
    w <:+: c :: t ↔ w <:+: t := by
  rw [List.infix_cons_iff]
  refine ⟨fun h => h.elim ?_ id, .inr⟩
  -- if the word began with it, it would be a character of the word
  intro hfront
  cases w with
  | nil => exact List.nil_infix
  | cons d more =>
    obtain ⟨rfl, -⟩ := List.cons_prefix_cons.1 hfront
    exact absurd List.mem_cons_self hc

/-- Nor does one at the end. -/
theorem infix_concat_iff_of_not_mem {w t : Text} {c : Char} (hc : c ∉ w) :
    w <:+: t ++ [c] ↔ w <:+: t := by
  rw [← List.reverse_infix, List.reverse_append, List.reverse_singleton, List.singleton_append,
    infix_cons_iff_of_not_mem (fun hmem => hc (List.mem_reverse.1 hmem)), List.reverse_infix]

/-- A word that begins a text, read with its underscores as spaces, begins the text. -/
theorem prefix_of_prefix_spaced {w t : Text} (hspace : ' ' ∉ w) (hunderscore : '_' ∉ w)
    (h : w <+: spaced t) : w <+: t := by
  -- along the word: a character that is read as another is not in it
  induction t using spaced.induct generalizing w with
  -- an escaped underscore is kept as one, with which the word does not begin
  | case1 => exact h
  | case2 rest ih =>
    rw [spaced] at h
    cases w with
    | nil => exact List.nil_prefix
    | cons d more =>
      obtain ⟨rfl, -⟩ := List.cons_prefix_cons.1 h
      exact absurd List.mem_cons_self hunderscore
  | case3 c rest hpair ih =>
    have hspaced : spaced (c :: rest) = (if c = '_' then ' ' else c) :: spaced rest := by
      rw [spaced]
      exact hpair
    rw [hspaced] at h
    cases w with
    | nil => exact List.nil_prefix
    | cons d more =>
      obtain ⟨hd, hmore⟩ := List.cons_prefix_cons.1 h
      simp only [List.mem_cons, not_or] at hspace hunderscore
      have hc : d = c := by
        split at hd
        · exact absurd hd.symm hspace.1
        · exact hd
      rw [hc]
      exact List.cons_prefix_cons.2 ⟨rfl, ih hspace.2 hunderscore.2 hmore⟩

/-- A word that stands in a text, read with its underscores as spaces, stands in the text. -/
theorem infix_of_infix_spaced {w t : Text} (hspace : ' ' ∉ w) (hunderscore : '_' ∉ w)
    (h : w <:+: spaced t) : w <:+: t := by
  -- in each case the word begins here or stands in the rest
  induction t using spaced.induct with
  | case1 => exact h
  | case2 rest ih =>
    rw [spaced, infix_cons_iff_of_not_mem hunderscore] at h
    exact (ih h).trans (List.suffix_append ['\\', '_'] rest).isInfix
  | case3 c rest hpair ih =>
    have hspaced : spaced (c :: rest) = (if c = '_' then ' ' else c) :: spaced rest := by
      rw [spaced]
      exact hpair
    rw [hspaced, List.infix_cons_iff, ← hspaced] at h
    exact List.infix_cons_iff.2 (h.imp (prefix_of_prefix_spaced hspace hunderscore) ih)

namespace Spacer

/-- Where no space was kept back, a word without spaces that begins what is written begins what is
    read. -/
theorem prefix_of_prefix_run {s : Spacer} (hs : s.Settled) (hgap : s.gap = .none) {w t : Text}
    (hspace : ' ' ∉ w) (h : w <+: s.run t) : w <+: t := by
  -- over the text, for all states in which no space is kept back
  induction t generalizing s w with
  | nil =>
    rw [run, hgap] at h
    exact h
  | cons c rest ih =>
    cases w with
    | nil => exact List.nil_prefix
    | cons d more =>
      simp only [List.mem_cons, not_or] at hspace
      have hnext := settled_step s c rest
      rw [run] at h
      rcases step_cases hs c rest with ⟨hout, hgap'⟩ | ⟨-, hout, -⟩ | ⟨-, hout, hgap'⟩
      · rw [hout, hgap] at h
        obtain ⟨rfl, hmore⟩ := List.cons_prefix_cons.1 h
        -- copied, so the word and the text go on behind it
        exact List.cons_prefix_cons.2 ⟨rfl, ih hnext hgap' hspace.2 hmore⟩
      · rw [hout] at h
        exact absurd (List.cons_prefix_cons.1 h).1.symm hspace.1
      · -- the space is due now, and it would be written first
        rw [hgap, if_pos rfl] at hgap'
        obtain ⟨behind, hbehind⟩ := written_of_due hnext hgap' [] rest
        rw [hout, List.nil_append, run_eq, hbehind] at h
        exact absurd (List.cons_prefix_cons.1 h).1.symm hspace.1

/-- A word without spaces stands behind the space that is due, or not at all. -/
theorem infix_flush_append_iff {gap : Gap} {w t : Text} (hspace : ' ' ∉ w) :
    w <:+: gap.flush ++ t ↔ w <:+: t := by
  cases gap with
  | due => exact infix_cons_iff_of_not_mem hspace
  | none | written => exact Iff.rfl

/-- A word without spaces and operators that stands in what is written stands in what is read. -/
theorem infix_of_infix_run {s : Spacer} (hs : s.Settled) {w t : Text} (hspace : ' ' ∉ w)
    (hoperators : ∀ c ∈ operators, c ∉ w) (h : w <:+: s.run t) : w <:+: t := by
  -- over the text; what is kept back is a space, which the word has not
  induction t generalizing s with
  | nil =>
    rw [run, ← List.append_nil s.gap.flush, infix_flush_append_iff hspace] at h
    exact h
  | cons c rest ih =>
    have hnext := settled_step s c rest
    rw [run] at h
    rcases step_cases hs c rest with ⟨hout, hgap⟩ | ⟨hc, hout, -⟩ | ⟨-, hout, -⟩
    · rw [hout, List.append_assoc, infix_flush_append_iff hspace, List.singleton_append,
        List.infix_cons_iff] at h
      rcases h with hfront | hmore
      · -- no space is due behind the character, so the word goes on in what is read
        cases w with
        | nil => exact List.nil_infix
        | cons d more =>
          simp only [List.mem_cons, not_or] at hspace
          obtain ⟨rfl, hmore⟩ := List.cons_prefix_cons.1 hfront
          have hrest := prefix_of_prefix_run hnext hgap hspace.2 hmore
          exact (List.cons_prefix_cons.2 ⟨rfl, hrest⟩).isInfix
      · exact (ih hnext hmore).trans (List.suffix_cons c rest).isInfix
    -- a spaced operator adds three characters that the word has not
    · rw [hout] at h
      simp only [List.cons_append, List.nil_append, infix_cons_iff_of_not_mem hspace,
        infix_cons_iff_of_not_mem (hoperators c hc)] at h
      exact (ih hnext h).trans (List.suffix_cons c rest).isInfix
    · rw [hout, List.nil_append] at h
      exact (ih hnext h).trans (List.suffix_cons c rest).isInfix

end Spacer

/-- A word without spaces and operators that stands in a text with spaced operators stands in the
    text. -/
theorem infix_of_infix_spaceOperators {w t : Text} (hspace : ' ' ∉ w)
    (hoperators : ∀ c ∈ operators, c ∉ w) (h : w <:+: spaceOperators t) : w <:+: t := by
  unfold spaceOperators at h
  split at h
  · exact Spacer.infix_of_infix_run Spacer.settled_start hspace hoperators h
  · exact h

/-- Reading underscores as spaces opens no address. -/
theorem lead_infix_of_infix_spaced {t : Text} (h : addressLead <:+: spaced t) :
    addressLead <:+: t :=
  infix_of_infix_spaced (by decide) (by decide) h

/-- Spacing operators opens no address. -/
theorem lead_infix_of_infix_spaceOperators {t : Text} (h : addressLead <:+: spaceOperators t) :
    addressLead <:+: t := by
  refine infix_of_infix_spaceOperators (by decide) ?_ h
  intro c hc
  rcases mem_operators_iff.1 hc with rfl | rfl | rfl | rfl <;> decide

/-! ## Gaps -/

/-- A gap as it is written in the canonical form of a value. -/
def writtenGap (gap : Text) : Text := spaceOperators (spaced gap)

/-- Rewriting a gap opens no address. -/
theorem lead_infix_of_infix_writtenGap {gap : Text} (h : addressLead <:+: writtenGap gap) :
    addressLead <:+: gap :=
  lead_infix_of_infix_spaced (lead_infix_of_infix_spaceOperators h)

/-- The piece with its text rewritten, if it is a gap. -/
def Piece.mapGap (f : Text → Text) : Piece → Piece
  | gap t => gap (f t)
  | address t => address t

/-- The address that a piece is, if it is no gap. -/
def Piece.address? : Piece → Option Text
  | gap _ => none
  | address t => some t

/-- The addresses of a value in order. -/
def addresses (t : Text) : List Text := (pieces t).filterMap Piece.address?

/-- Rewriting gaps keeps the addresses. -/
theorem filterMap_address?_mapGap (f : Text → Text) (ps : List Piece) :
    (ps.map (Piece.mapGap f)).filterMap Piece.address? = ps.filterMap Piece.address? := by
  rw [List.filterMap_map]
  congr 1
  funext piece
  cases piece <;> rfl

/-- Pieces whose gaps hold no lead are brought into canonical form by rewriting the gaps. -/
theorem canonicalPieces_eq_ok {ps : List Piece}
    (h : ∀ gap, .gap gap ∈ ps → ¬ addressLead <:+: gap) :
    canonicalPieces ps = .ok ((ps.map (Piece.mapGap writtenGap)).flatMap Piece.text) := by
  induction ps with
  | nil => rfl
  | cons piece more ih =>
    have hmore := ih fun gap hgap => h gap (List.mem_cons_of_mem _ hgap)
    have hpiece : piece.canonical = .ok (piece.mapGap writtenGap).text := by
      cases piece with
      | gap t =>
        have hlead := h t List.mem_cons_self
        rw [Piece.canonical, canonicalGap, if_neg (by rwa [Text.occurs_iff])]
        rfl
      | address t => rfl
    rw [canonicalPieces, hpiece, hmore, List.map_cons, List.flatMap_cons]

/-! ## Cutting again -/

/-- A text without a lead has no address. -/
theorem cutAddress?_eq_none_of_not_lead {t : Text} (h : ¬ addressLead <:+: t) :
    cutAddress? t = none := by
  cases hcut : cutAddress? t with
  | none => rfl
  | some found =>
    obtain ⟨front, address, after⟩ := found
    obtain ⟨x, rfl, -⟩ := address_of_cutAddress? hcut
    refine absurd ⟨front, x ++ [')'] ++ after, ?_⟩ h
    rw [eq_of_cutAddress? hcut]
    simp

/-- An address at the front of a text is the leftmost one. -/
theorem cutAddress?_of_addressAt? {t address after : Text}
    (h : addressAt? t = some (address, after)) : cutAddress? t = some ([], address, after) := by
  cases t with
  | nil => exact nomatch h
  | cons c rest => rw [cutAddress?, h]

/-- An address is the leftmost one of a text if no lead stands in front of it. -/
theorem cutAddress?_append_address {front x after : Text} (hlead : ¬ addressLead <:+: front)
    (hclose : ')' ∉ x) (hline : '\n' ∉ x) :
    cutAddress? (front ++ (addressLead ++ x ++ ')' :: after)) =
      some (front, addressLead ++ x ++ [')'], after) := by
  induction front with
  | nil =>
    apply cutAddress?_of_addressAt?
    exact addressAt?_eq_some_iff.2 ⟨x, rfl, rfl, hclose, hline⟩
  | cons c more ih =>
    rw [List.infix_cons_iff, not_or] at hlead
    -- a lead does not begin in front of the address and end in it
    have hat : addressAt? (c :: more ++ (addressLead ++ x ++ ')' :: after)) = none := by
      rw [addressAt?_eq_none_iff]
      intro rest hrest
      have hfront : addressLead <+: c :: more ++ (addressLead ++ (x ++ ')' :: after)) :=
        ⟨rest, by rw [← hrest, List.append_assoc addressLead]⟩
      exact absurd ((lead_prefix_append_iff (List.cons_ne_nil c more)).1 hfront) hlead.1
    rw [List.cons_append] at hat ⊢
    rw [cutAddress?, hat, ih hlead.2]
    rfl

/-- A text with an address is cut at the leftmost one. -/
theorem pieces_of_cutAddress?_eq_some {t front address after : Text}
    (h : cutAddress? t = some (front, address, after)) :
    pieces t = .gap front :: .address address :: pieces after := by
  rw [pieces]
  split
  · next hnone => exact absurd (hnone.symm.trans h) nofun
  · next hsome =>
    have hsame := Option.some.inj (hsome.symm.trans h)
    simp only [Prod.mk.injEq] at hsame
    obtain ⟨rfl, rfl, rfl⟩ := hsame
    rfl

/-- A value is cut as before if no gap is rewritten into an opening. -/
theorem pieces_flatMap_mapGap {f : Text → Text} {t : Text}
    (h : ∀ gap, .gap gap ∈ pieces t → ¬ addressLead <:+: f gap) :
    pieces (((pieces t).map (Piece.mapGap f)).flatMap Piece.text) =
      (pieces t).map (Piece.mapGap f) := by
  fun_induction pieces t with
  | case1 t hnone =>
    have hlead := h t List.mem_cons_self
    simp only [List.map_cons, List.map_nil, Piece.mapGap, List.flatMap_cons, List.flatMap_nil,
      Piece.text, List.append_nil]
    exact pieces_of_cutAddress?_eq_none (cutAddress?_eq_none_of_not_lead hlead)
  | case2 t front address after hcut ih =>
    -- nothing in front opens an address, so the first cut is made where it was
    have hlead := h front List.mem_cons_self
    have hafter := ih fun gap hgap =>
      h gap (List.mem_cons_of_mem _ (List.mem_cons_of_mem _ hgap))
    obtain ⟨x, rfl, hclose, hline⟩ := address_of_cutAddress? hcut
    simp only [List.map_cons, Piece.mapGap, List.flatMap_cons, Piece.text]
    rw [List.append_assoc (addressLead ++ x), List.singleton_append,
      pieces_of_cutAddress?_eq_some (cutAddress?_append_address hlead hclose hline), hafter]

/-! ## Canonical forms -/

/-- The canonical form of a value with a `url(`, if no gap holds one. -/
theorem canonical_eq_ok_of_lead {t : Text} (hdashes : ¬ ['-', '-'] <+: t)
    (hlead : addressLead <:+: t) (hgaps : ∀ gap, .gap gap ∈ pieces t → ¬ addressLead <:+: gap) :
    canonical t = .ok (((pieces t).map (Piece.mapGap writtenGap)).flatMap Piece.text) := by
  rw [canonical, if_neg (by rwa [List.isPrefixOf_iff_prefix]), if_pos (Text.occurs_iff.2 hlead)]
  exact canonicalPieces_eq_ok hgaps

/-- For a value that is no lone custom property: if a gap between its addresses holds a `url(`, the
    recursion does not end.  Otherwise it ends, and where the value holds a `url(` the result is
    the addresses as they are among the gaps rewritten, and it has the same addresses. -/
theorem canonical_keeps_addresses {t : Text} (h : ¬ ['-', '-'] <+: t) :
    ((∃ gap, .gap gap ∈ pieces t ∧ addressLead <:+: gap) →
      (∀ depth, canonicalWithin depth true t = none) ∧ ∃ fault, canonical t = .error fault) ∧
    ((¬ ∃ gap, .gap gap ∈ pieces t ∧ addressLead <:+: gap) →
      ∃ r, (∃ depth, canonicalWithin depth true t = some r) ∧ canonical t = .ok r ∧
        (addressLead <:+: t →
          r = ((pieces t).map (Piece.mapGap writtenGap)).flatMap Piece.text ∧
          addresses r = addresses t)) := by
  have hfault : (∃ fault, canonical t = .error fault) ↔
      ∃ gap, .gap gap ∈ pieces t ∧ addressLead <:+: gap := by
    rw [canonical_eq_error_iff_unclosed, exists_gap_iff_unclosed, and_iff_right h]
  constructor
  · intro hgap
    exact ⟨canonical_eq_error_iff.1 (hfault.2 hgap), hfault.2 hgap⟩
  · intro hgaps
    cases hcan : canonical t with
    | error fault => exact absurd (hfault.1 ⟨fault, hcan⟩) hgaps
    | ok r =>
      refine ⟨r, canonical_eq_ok_iff.1 hcan, rfl, fun hlead => ?_⟩
      have hgaps' : ∀ gap, .gap gap ∈ pieces t → ¬ addressLead <:+: gap :=
        fun gap hgap hin => hgaps ⟨gap, hgap, hin⟩
      have hr : r = ((pieces t).map (Piece.mapGap writtenGap)).flatMap Piece.text :=
        Except.ok.inj (hcan.symm.trans (canonical_eq_ok_of_lead h hlead hgaps'))
      refine ⟨hr, ?_⟩
      have hopen : ∀ gap, .gap gap ∈ pieces t → ¬ addressLead <:+: writtenGap gap :=
        fun gap hgap hin => hgaps' gap hgap (lead_infix_of_infix_writtenGap hin)
      rw [hr, addresses, addresses, pieces_flatMap_mapGap hopen, filterMap_address?_mapGap]

/-- An address inside of a math function and one behind it are kept with their underscores and
    operators, and the gaps are rewritten each for itself. -/
theorem canonical_keeps_addresses_in_calc :
    ∃ t r : Text, t = "calc(1+url(a_b+c)_+2)_url(\\_)" ∧ ¬ ['-', '-'] <+: t ∧
      canonical t = .ok r ∧ r = "calc(1 + url(a_b+c) +2) url(\\_)".toList ∧
      addresses r = addresses t := by
  let t : Text := "calc(1+url(a_b+c)_+2)_url(\\_)"
  have hdashes : ¬ ['-', '-'] <+: t := by decide +kernel
  have hlead : addressLead <:+: t := by decide +kernel
  have hfirst : cutAddress? t =
      some ("calc(1+".toList, "url(a_b+c)".toList, "_+2)_url(\\_)".toList) := by decide +kernel
  have hsecond : cutAddress? "_+2)_url(\\_)".toList =
      some ("_+2)_".toList, "url(\\_)".toList, []) := by decide +kernel
  have hpieces : pieces t = [.gap "calc(1+".toList, .address "url(a_b+c)".toList,
      .gap "_+2)_".toList, .address "url(\\_)".toList, .gap []] := by
    rw [pieces_of_cutAddress?_eq_some hfirst, pieces_of_cutAddress?_eq_some hsecond,
      pieces_of_cutAddress?_eq_none rfl]
  have hgaps : ¬ ∃ gap, .gap gap ∈ pieces t ∧ addressLead <:+: gap := by
    rw [hpieces]
    rintro ⟨gap, hgap, hin⟩
    simp only [List.mem_cons, Piece.gap.injEq, reduceCtorEq, false_or, List.not_mem_nil,
      or_false] at hgap
    rcases hgap with rfl | rfl | rfl <;> exact absurd hin (by decide +kernel)
  obtain ⟨r, -, hcan, hkept⟩ := (canonical_keeps_addresses hdashes).2 hgaps
  obtain ⟨hr, hsame⟩ := hkept hlead
  rw [hpieces] at hr
  exact ⟨t, r, rfl, hdashes, hcan, hr.trans (by decide +kernel), hsame⟩

end UtilityClass.Value
