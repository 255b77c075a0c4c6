import UtilityClass.Proofs.Text.Blank
import UtilityClass.Proofs.Value.Address
import UtilityClass.Proofs.Value.Arithmetic
import UtilityClass.Proofs.Value.Escape
import UtilityClass.Value.Canonical

/-!
# Canonical values stay valid

On its way to the canonical form a value loses and gains spaces, and backslashes in front of
underscores.  No reader heeds spaces, underscores and the characters of arithmetic, other than by
spending a pending escape on them.  So a reader is left by the rewritten text as by the text itself,
whatever was open when it began.

## Key results

- `Reader.read_spaced` / `Reader.read_spaceOperators`: rewriting changes nothing for a reader
- `Reader.read_canonicalPieces`: nor does it between addresses
- `Reader.read_strip`: a text comes to rest without the blanks at its ends
- `isValid_canonical`: the canonical form of a valid value is valid
-/

namespace UtilityClass.Value

/-- The operators are no marks: no reader heeds them outside of an escape. -/
theorem not_mem_marks_of_mem_operators {c : Char} (h : c ∈ operators) : c ∉ marks := by
  simp only [operators, List.mem_cons, List.not_mem_nil, or_false] at h
  rcases h with rfl | rfl | rfl | rfl <;> decide

namespace Reader

/-! ## Rewriting -/

variable {r : Reader}

/-- Reading underscores as spaces changes nothing for a reader, and neither does taking away the
    backslashes of escaped underscores. -/
theorem read_spaced (hr : r.QuotesOnly) (t : Text) : r.read (spaced t) = r.read t := by
  have hspace : ' ' ∉ marks := by decide
  have hunderscore : '_' ∉ marks := by decide
  -- the reader changes with every character, so the induction is for all readers
  induction t using spaced.induct generalizing r with
  | case1 => rfl
  | case2 rest ih =>
    -- the underscore is spent on the escape of the backslash, or on the one that was pending
    have hescaped : r.read ('\\' :: '_' :: rest) = r.unescaped.read rest := by
      obtain ⟨awaited, quote, escaped⟩ := r
      cases escaped with
      | true =>
        have hstep := step_of_not_mem_marks (r := ⟨awaited, quote, false⟩) hr hunderscore
        show (mk awaited quote false).read ('_' :: rest) = _
        rw [read_cons, hstep]
        rfl
      | false => rfl
    rw [spaced, read_cons, step_of_not_mem_marks hr hunderscore, Option.bind_some,
      ih hr.unescaped, hescaped]
  | case3 c rest hpair ih =>
    rw [spaced]
    · split
      · next hc =>
        subst hc
        rw [read_cons, read_cons, step_of_not_mem_marks hr hspace,
          step_of_not_mem_marks hr hunderscore, Option.bind_some, Option.bind_some, ih hr.unescaped]
      · exact read_cons_congr fun r' hstep => ih (hr.step hstep)
    · exact hpair

/-- A reader of what a spacer writes goes along with a reader of the text that the spacer reads:
    they differ at most by a space that is due, and behind a space no escape is pending. -/
structure GoesAlong (s : Spacer) (written r : Reader) : Prop where
  quotesOnly : written.QuotesOnly
  read_flush : written.read s.gap.flush = some r
  settled : s.gap ≠ .none → r.escaped = false

/-- The reader of the text, too, waits for quotes and brackets only. -/
theorem GoesAlong.quotesOnly_source {s : Spacer} {written r : Reader} (h : GoesAlong s written r) :
    r.QuotesOnly := h.quotesOnly.read h.read_flush

/-- Without its pending escape each of the two readers is the other. -/
theorem GoesAlong.unescaped_eq {s : Spacer} {written r : Reader} (h : GoesAlong s written r) :
    written.unescaped = r.unescaped := by
  have hflush := h.read_flush
  cases hgap : s.gap with
  | due =>
    have hspace := step_of_not_mem_marks h.quotesOnly (c := ' ') (by decide)
    rw [hgap, Gap.flush, read_cons, hspace] at hflush
    rw [← Option.some.inj hflush]
    rfl
  | none | written =>
    rw [hgap] at hflush
    rw [← Option.some.inj hflush]

/-- What a spacer writes leaves its reader as the text leaves the other. -/
theorem read_run {s : Spacer} {written r : Reader} (hs : s.Settled) (h : GoesAlong s written r)
    (t : Text) : written.read (s.run t) = r.read t := by
  have hspace : ' ' ∉ marks := by decide
  -- over the text, for all spacers and all readers that go along with them
  induction t generalizing s written r with
  | nil => exact h.read_flush
  | cons c rest ih =>
    have hnext := s.settled_step c rest
    rw [Spacer.run]
    -- the three kinds of steps: a character is copied, an operator is spaced, a space is put off
    rcases s.step_cases hs c rest with ⟨hout, hgap⟩ | ⟨hoperator, hout, hgap⟩ | ⟨rfl, hout, hgap⟩
    · -- both readers come to the character, and then stand where the other stands
      rw [hout, List.append_assoc, List.singleton_append, read_append, h.read_flush,
        Option.bind_some]
      refine read_cons_congr fun r' hstep => ih hnext ⟨h.quotesOnly_source.step hstep, ?_, ?_⟩
      · rw [hgap]
        rfl
      · exact fun hne => absurd hgap hne
    · -- the first space takes the escape that is pending, if not the operator did
      have hwritten : written.read [' ', c, ' '] = some written.unescaped := by
        have hc := not_mem_marks_of_mem_operators hoperator
        rw [read_cons, step_of_not_mem_marks h.quotesOnly hspace, Option.bind_some, read_cons,
          step_of_not_mem_marks h.quotesOnly.unescaped hc, Option.bind_some, read_cons,
          step_of_not_mem_marks h.quotesOnly.unescaped.unescaped hspace]
        rfl
      rw [hout, read_append, hwritten, Option.bind_some, read_cons,
        step_of_not_mem_marks h.quotesOnly_source (not_mem_marks_of_mem_operators hoperator),
        Option.bind_some]
      refine ih hnext ⟨h.quotesOnly.unescaped, ?_, fun _ => rfl⟩
      rw [hgap, h.unescaped_eq]
      rfl
    · -- the space is read by the one, and due to be read by the other
      rw [hout, List.nil_append, read_cons, step_of_not_mem_marks h.quotesOnly_source hspace,
        Option.bind_some]
      refine ih hnext ⟨h.quotesOnly, ?_, fun _ => rfl⟩
      rw [hgap]
      split
      · rw [← h.unescaped_eq]
        show written.read [' '] = _
        rw [read_cons, step_of_not_mem_marks h.quotesOnly hspace]
        rfl
      -- a space behind one that is due or written: the escape is spent already
      · next hkept => rw [h.read_flush, unescaped_eq_self (h.settled hkept)]

/-- Spacing operators changes nothing for a reader. -/
theorem read_spaceOperators (hr : r.QuotesOnly) (t : Text) :
    r.read (spaceOperators t) = r.read t := by
  unfold spaceOperators
  split
  · exact read_run Spacer.settled_start ⟨hr, rfl, fun h => absurd rfl h⟩ t
  · rfl

/-- Pieces have a canonical form if the first has one and the others have, and it is theirs
    joined. -/
theorem canonicalPieces_cons_eq_ok_iff {piece : Piece} {more : List Piece} {out : Text} :
    canonicalPieces (piece :: more) = .ok out ↔
      ∃ front rest, piece.canonical = .ok front ∧ canonicalPieces more = .ok rest ∧
        out = front ++ rest := by
  rw [canonicalPieces]
  cases piece.canonical <;> cases canonicalPieces more <;> simp [eq_comm (a := out)]

/-- Bringing the gaps of a value into canonical form changes nothing for a reader, whatever was
    opened in the gaps and addresses in front. -/
theorem read_canonicalPieces (hr : r.QuotesOnly) {ps : List Piece} {out : Text}
    (h : canonicalPieces ps = .ok out) : r.read out = r.read (ps.flatMap Piece.text) := by
  induction ps generalizing r out with
  | nil =>
    obtain rfl : _ = out := Except.ok.inj h
    rfl
  | cons piece more ih =>
    obtain ⟨front, rest, hpiece, hmore, rfl⟩ := canonicalPieces_cons_eq_ok_iff.1 h
    -- an address is written as it is, and a gap is rewritten by spaces that no reader heeds
    have hfront : r.read front = r.read piece.text := by
      cases piece with
      | address t =>
        obtain rfl : _ = front := Except.ok.inj hpiece
        rfl
      | gap t =>
        rw [Piece.canonical, canonicalGap] at hpiece
        split at hpiece
        · exact nomatch hpiece
        · obtain rfl : _ = front := Except.ok.inj hpiece
          rw [read_spaceOperators hr, read_spaced hr]
          rfl
    rw [List.flatMap_cons, read_append, read_append, hfront]
    -- a reader that gives up does so on both sides
    cases hread : r.read piece.text with
    | none => rfl
    | some r' => exact ih (hr.read hread) hmore

/-! ## Blanks at the ends -/

/-- Blanks spend a pending escape and change nothing else. -/
theorem read_blanks (hr : r.QuotesOnly) {blanks : Text} (h : ∀ c ∈ blanks, Text.isBlank c = true) :
    r.read blanks = some (if blanks = [] then r else r.unescaped) := by
  induction blanks generalizing r with
  | nil => rfl
  | cons c more ih =>
    obtain ⟨hc, hmore⟩ := List.forall_mem_cons.1 h
    rw [read_cons, step_of_not_mem_marks hr (not_mem_marks_of_isBlank hc), Option.bind_some,
      ih hr.unescaped hmore]
    split <;> simp [unescaped]

/-- A text that comes to rest does so without the blanks at its ends.  The last of them may have
    been escaped; then the escape is left pending. -/
theorem read_strip {t : Text} (h : ∃ r, start.read t = some r ∧ r.atRest = true) :
    ∃ r, start.read (Text.strip t) = some r ∧ r.atRest = true := by
  obtain ⟨r, hread, hrest⟩ := h
  obtain ⟨lead, trail, hlead, htrail, ht⟩ := Text.exists_eq_append_strip t
  rw [ht] at hread
  have hstart : start.read lead = some start := by
    rw [read_blanks quotesOnly_start hlead]
    split <;> rfl
  rw [read_append, read_append, hstart, Option.bind_some] at hread
  -- what is left between the blanks is read to some state, and the blanks behind keep it at rest
  obtain ⟨r', hr', htrailing⟩ := Option.bind_eq_some_iff.1 hread
  refine ⟨r', hr', ?_⟩
  rw [read_blanks (quotesOnly_start.read hr') htrail] at htrailing
  rw [← Option.some.inj htrailing] at hrest
  split at hrest <;> exact hrest

end Reader

/-! ## Canonical forms -/

/-- A value that leaves no escape pending may stand in a function call. -/
theorem isValid_call {v : Text} (h : isValid v = true) (hescape : ¬ EndsInEscape v) :
    isValid ("var(".toList ++ v ++ [')']) = true := by
  have hopen : Reader.start.read "var(".toList = some (Reader.start.within [')']) := rfl
  have hinner := Reader.read_within [')'] (read_of_isValid h)
  rw [decide_eq_false hescape] at hinner
  refine isValid_iff_read.2 ⟨by simp, .start, ?_, rfl⟩
  rw [Reader.read_append, Reader.read_append, hopen, Option.bind_some, hinner]
  rfl

/-- If a valid value does not end in an escape, its canonical form is valid unless it is empty. -/
theorem isValid_canonical {v r : Text} (h : isValid v = true) (hescape : ¬ EndsInEscape v)
    (hcan : canonical v = .ok r) (hne : r ≠ []) : isValid r = true := by
  have hrest := (isValid_iff_read.1 h).2
  -- without a lead of an address all of the value is one gap, which is trimmed as well
  unfold canonical at hcan
  split at hcan
  · obtain rfl : _ = r := Except.ok.inj hcan
    exact isValid_call h hescape
  · split at hcan
    · -- readers do not notice that the gaps were rewritten
      rw [isValid_iff_read, Reader.read_canonicalPieces Reader.quotesOnly_start hcan, join_pieces]
      exact ⟨hne, hrest⟩
    · obtain rfl : _ = r := Except.ok.inj hcan
      rw [isValid_iff_read, Reader.read_spaceOperators Reader.quotesOnly_start]
      refine ⟨hne, Reader.read_strip ?_⟩
      rwa [Reader.read_spaced Reader.quotesOnly_start]

/-- A value with escapes, quotes, operators and an address, rewritten around the address. -/
theorem isValid_canonical_mixed :
    ∃ v r : Text, v = "calc(1px-2em*';\\'')_url(a_b)_\\;".toList ∧
      r = "calc(1px - 2em * ';\\'') url(a_b) \\;".toList ∧ isValid v = true ∧ ¬ EndsInEscape v ∧
        canonical v = .ok r ∧ isValid r = true := by
  have hvalid : isValid "calc(1px-2em*';\\'')_url(a_b)_\\;" = true := by decide
  have hescape : ¬ EndsInEscape "calc(1px-2em*';\\'')_url(a_b)_\\;" := by decide
  have hcan : canonical "calc(1px-2em*';\\'')_url(a_b)_\\;" =
      .ok "calc(1px - 2em * ';\\'') url(a_b) \\;" := by decide +kernel
  exact ⟨_, _, rfl, rfl, hvalid, hescape, hcan, isValid_canonical hvalid hescape hcan (by decide)⟩

end UtilityClass.Value
