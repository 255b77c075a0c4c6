import UtilityClass.Value.Syntax

/-!
# The grammar of values

A value is a sequence of items: escapes, quoted strings, groups in brackets, and characters that
stand for themselves.  The items of a group may be any, a semicolon among them; outside of groups
a semicolon is no item.  A backslash may end the whole value.

The reader is sound, as reading an item leaves it where it was (`read_item`), and complete, as what
takes it to rest closes one awaited bracket after the other with items in between
(`completes_of_read`).

## Key results

- `read_item`: reading an item changes nothing about the reader
- `completes_of_read`: what a reader that comes to rest has read
- `isValid_iff_items`: a value is valid exactly if it is a non-empty sequence of items
-/

namespace UtilityClass.Value

/-! ## The grammar -/

/-- The characters that open and close a quoted string. -/
def quotes : List Char := ['"', '\'', '\x60']

/-- The pairs of brackets. -/
def brackets : List (Char × Char) := [('(', ')'), ('[', ']'), ('\x7b', '\x7d')]

/-- The text of a quoted string: escapes, and characters other than its quote and a backslash. -/
inductive Quoted (quote : Char) : Text → Prop
  | nil : Quoted quote []
  | escape (c : Char) {t : Text} (h : Quoted quote t) : Quoted quote ('\\' :: c :: t)
  | cons {c : Char} {t : Text} (hquote : c ≠ quote) (hescape : c ≠ '\\') (h : Quoted quote t) :
      Quoted quote (c :: t)

/-- A character that stands for itself is no backslash, no quote and no bracket. -/
structure IsPlain (c : Char) : Prop where
  ne_escape : c ≠ '\\'
  not_quote : c ∉ quotes
  not_bracket : ∀ pair ∈ brackets, c ≠ pair.1 ∧ c ≠ pair.2

/-- One item of a value, at its top level or within a group. -/
inductive Item : (grouped : Bool) → Text → Prop
  | escape {grouped : Bool} (c : Char) : Item grouped ['\\', c]
  | quoted {grouped : Bool} {quote : Char} {t : Text} (hquote : quote ∈ quotes)
      (ht : Quoted quote t) : Item grouped (quote :: t ++ [quote])
  | group {grouped : Bool} {opener closer : Char} {items : List Text}
      (hpair : (opener, closer) ∈ brackets) (hitems : ∀ item ∈ items, Item true item) :
      Item grouped (opener :: items.flatten ++ [closer])
  /-- Only within a group does a semicolon stand for itself. -/
  | plain {grouped : Bool} {c : Char} (hc : IsPlain c) (hsemicolon : c = ';' → grouped = true) :
      Item grouped [c]

/-! ## Characters -/

/-- The quotes are those of the grammar. -/
theorem isQuote_iff {c : Char} : isQuote c = true ↔ c ∈ quotes := by
  simp [isQuote, quotes, or_assoc]

/-- An opening bracket and what closes it are a pair of the grammar. -/
theorem closer?_eq_some_iff {opener closer : Char} :
    closer? opener = some closer ↔ (opener, closer) ∈ brackets := by
  unfold closer?
  split <;> simp_all [brackets, eq_comm]

/-- The closing brackets are those of the grammar. -/
theorem isCloser_iff {c : Char} : isCloser c = true ↔ ∃ pair ∈ brackets, c = pair.2 := by
  simp [isCloser, brackets, or_assoc]

/-- A character is plain if the reader has no test that holds of it. -/
theorem isPlain_iff {c : Char} :
    IsPlain c ↔ c ≠ '\\' ∧ isQuote c = false ∧ closer? c = none ∧ isCloser c = false := by
  -- each of the reader's tests, said of the lists of the grammar
  have hquote : isQuote c = false ↔ c ∉ quotes := by rw [← isQuote_iff, Bool.not_eq_true]
  have hopener : closer? c = none ↔ ∀ pair ∈ brackets, c ≠ pair.1 := by
    unfold closer?
    split <;> simp_all [brackets]
  have hcloser : isCloser c = false ↔ ∀ pair ∈ brackets, c ≠ pair.2 := by
    rw [← Bool.not_eq_true, isCloser_iff]
    simp only [not_exists, not_and, ne_eq]
  rw [hquote, hopener, hcloser]
  constructor
  · intro h
    exact ⟨h.ne_escape, h.not_quote, fun p hp => (h.not_bracket p hp).1,
      fun p hp => (h.not_bracket p hp).2⟩
  · intro h
    obtain ⟨hescape, hquote, hopener, hcloser⟩ := h
    exact ⟨hescape, hquote, fun p hp => ⟨hopener p hp, hcloser p hp⟩⟩

/-! ## Steps -/

namespace Reader

/-- A character is read first, and the rest by the reader that it leaves. -/
theorem read_cons (r : Reader) (c : Char) (v : Text) :
    r.read (c :: v) = (r.step c).bind fun r' => r'.read v := rfl

/-- A backslash and the character behind it change nothing, whatever is open. -/
theorem read_escape (awaited : List Char) (quote : Option Char) (c : Char) (v : Text) :
    (mk awaited quote false).read ('\\' :: c :: v) = (mk awaited quote false).read v := rfl

/-- Outside of escapes and quotes a character opens a quote, opens a group, closes the group that
    is awaited to close first, or stands for itself. -/
theorem stepPlain_eq_some_iff {r r' : Reader} {c : Char} (hescape : c ≠ '\\') :
    stepPlain r c = some r' ↔
      (c ∈ quotes ∧ r' = { r with quote := some c }) ∨
      (∃ closer, (c, closer) ∈ brackets ∧ r' = { r with awaited := closer :: r.awaited }) ∨
      (∃ opener outer, (opener, c) ∈ brackets ∧ r.awaited = c :: outer ∧
        r' = { r with awaited := outer }) ∨
      (IsPlain c ∧ (c = ';' → r.awaited ≠ []) ∧ r' = r) := by
  constructor
  · -- the branches of a step, in their order
    intro h
    unfold stepPlain at h
    split at h
    · next hquote => exact .inl ⟨isQuote_iff.1 hquote, (Option.some.inj h).symm⟩
    · next hquote =>
      split at h
      · next closer hopener =>
        exact .inr (.inl ⟨closer, closer?_eq_some_iff.1 hopener, (Option.some.inj h).symm⟩)
      · next hopener =>
        split at h
        · next hcloser =>
          obtain ⟨⟨opener, c⟩, hpair, rfl⟩ := isCloser_iff.1 hcloser
          split at h
          · exact nomatch h
          · next closer outer hawaited =>
            split at h
            · next heq =>
              subst heq
              exact .inr (.inr (.inl ⟨opener, outer, hpair, hawaited, (Option.some.inj h).symm⟩))
            · exact nomatch h
        · next hcloser =>
          split at h
          · exact nomatch h
          · next hallowed =>
            have hplain : IsPlain c :=
              isPlain_iff.2 ⟨hescape, by simpa using hquote, hopener, by simpa using hcloser⟩
            have hsemicolon : c = ';' → r.awaited ≠ [] := fun hc hnil => hallowed ⟨hc, hnil⟩
            exact .inr (.inr (.inr ⟨hplain, hsemicolon, (Option.some.inj h).symm⟩))
  -- each of the four cases takes the branch of its own
  · intro h
    rcases h with ⟨hquote, rfl⟩ | ⟨closer, hpair, rfl⟩ | ⟨opener, outer, hpair, hawaited, rfl⟩ |
      ⟨hplain, hsemicolon, rfl⟩
    · unfold stepPlain
      rw [if_pos (isQuote_iff.2 hquote)]
    · -- for each of the three pairs of brackets
      simp only [brackets, List.mem_cons, Prod.mk.injEq, List.not_mem_nil, or_false] at hpair
      rcases hpair with ⟨rfl, rfl⟩ | ⟨rfl, rfl⟩ | ⟨rfl, rfl⟩ <;> rfl
    · simp only [brackets, List.mem_cons, Prod.mk.injEq, List.not_mem_nil, or_false] at hpair
      rcases hpair with ⟨-, rfl⟩ | ⟨-, rfl⟩ | ⟨-, rfl⟩ <;>
        simp [stepPlain, isQuote, closer?, isCloser, hawaited]
    · obtain ⟨-, hquote, hopener, hcloser⟩ := isPlain_iff.1 hplain
      have hallowed : ¬ (c = ';' ∧ r'.awaited = []) := fun h => hsemicolon h.1 h.2
      simp [stepPlain, hquote, hopener, hcloser, hallowed]

/-- Where no quote is open, a character that is no backslash is read as such. -/
theorem step_eq_stepPlain {awaited : List Char} {c : Char} (hescape : c ≠ '\\') :
    (mk awaited none false).step c = stepPlain (mk awaited none false) c := by
  simp [step, hescape]

/-! ## Reading items -/

/-- A reader reads the text of a quoted string without leaving it. -/
theorem read_quoted {quote : Char} {t : Text} (h : Quoted quote t) (awaited : List Char) :
    (mk awaited (some quote) false).read t = some (mk awaited (some quote) false) := by
  -- on the text of the string; neither an escape nor another character leaves it
  induction h with
  | nil => rfl
  | escape c _ ih => rw [read_escape, ih]
  | @cons c t hquote hescape _ ih =>
    have hstep : (mk awaited (some quote) false).step c = some (mk awaited (some quote) false) := by
      simp [step, hquote, hescape]
    rw [read_cons, hstep, Option.bind_some, ih]

/-- A text that is read in parts that change nothing changes nothing. -/
theorem read_flatten {r : Reader} {parts : List Text} (h : ∀ part ∈ parts, r.read part = some r) :
    r.read parts.flatten = some r := by
  induction parts with
  | nil => rfl
  | cons part more ih =>
    rw [List.flatten_cons, read_append, h part List.mem_cons_self]
    exact ih fun p hp => h p (List.mem_cons_of_mem _ hp)

/-- Reading an item changes nothing about a reader. -/
theorem read_item {grouped : Bool} {item : Text} (h : Item grouped item) {awaited : List Char}
    (hgrouped : grouped = true → awaited ≠ []) :
    (mk awaited none false).read item = some (mk awaited none false) := by
  -- on the grammar: one case for each form of an item
  induction h generalizing awaited with
  | escape c => rfl
  | @quoted _ quote t hquote ht =>
    have hescape : quote ≠ '\\' := by rintro rfl; exact absurd hquote (by decide)
    -- the quote opens a string, whose text leaves it open, and closes it
    have hopen : (mk awaited none false).step quote = some (mk awaited (some quote) false) := by
      rw [step_eq_stepPlain hescape]
      exact (stepPlain_eq_some_iff hescape).2 (.inl ⟨hquote, rfl⟩)
    have hclose : (mk awaited (some quote) false).read [quote] = some (mk awaited none false) := by
      simp [step, hescape, read]
    rw [List.cons_append, read_cons, hopen, Option.bind_some, read_append, read_quoted ht,
      Option.bind_some, hclose]
  | @group _ opener closer items hpair hitems ih =>
    have hescape : opener ≠ '\\' ∧ closer ≠ '\\' := by
      constructor <;> rintro rfl <;> simp [brackets] at hpair
    -- within the group one more bracket is awaited, so its items may be any
    have hinner : (mk (closer :: awaited) none false).read items.flatten =
        some (mk (closer :: awaited) none false) :=
      read_flatten fun item hitem => ih item hitem fun _ => by simp
    have hopen :
        (mk awaited none false).step opener = some (mk (closer :: awaited) none false) := by
      rw [step_eq_stepPlain hescape.1]
      exact (stepPlain_eq_some_iff hescape.1).2 (.inr (.inl ⟨closer, hpair, rfl⟩))
    have hclose : (mk (closer :: awaited) none false).step closer =
        some (mk awaited none false) := by
      rw [step_eq_stepPlain hescape.2]
      exact (stepPlain_eq_some_iff hescape.2).2
        (.inr (.inr (.inl ⟨opener, awaited, hpair, rfl, rfl⟩)))
    rw [List.cons_append, read_cons, hopen, Option.bind_some, read_append, hinner,
      Option.bind_some, read_cons, hclose]
    rfl
  | @plain grouped c hc hsemicolon =>
    -- a semicolon is plain only in a group, where a bracket is awaited
    have hstep : (mk awaited none false).step c = some (mk awaited none false) := by
      rw [step_eq_stepPlain hc.ne_escape]
      exact (stepPlain_eq_some_iff hc.ne_escape).2
        (.inr (.inr (.inr ⟨hc, fun h => hgrouped (hsemicolon h), rfl⟩)))
    rw [read_cons, hstep]
    rfl

end Reader

/-! ## Coming to rest -/

/-- What closes the awaited brackets one after the other: items up to each of them, and behind the
    last one items of the top level, perhaps with a lone backslash. -/
def Closes : (awaited : List Char) → Text → Prop
  | [], v => ∃ items : List Text, (∀ item ∈ items, Item false item) ∧
      (v = items.flatten ∨ v = items.flatten ++ ['\\'])
  | close :: outer, v => ∃ (items : List Text) (rest : Text), (∀ item ∈ items, Item true item) ∧
      v = items.flatten ++ close :: rest ∧ Closes outer rest

/-- What closes the open quote, if one is open, and then the awaited brackets. -/
def ClosesQuote (awaited : List Char) : Option Char → Text → Prop
  | none, v => Closes awaited v
  | some quote, v => ∃ t rest : Text, Quoted quote t ∧ v = t ++ quote :: rest ∧ Closes awaited rest

/-- What takes a reader to rest.  A pending escape counts as a backslash that is still to come. -/
def Reader.Completes (r : Reader) (v : Text) : Prop :=
  ClosesQuote r.awaited r.quote (if r.escaped then '\\' :: v else v)

/-- One more item in front. -/
theorem Closes.append_item {awaited : List Char} {item v : Text}
    (hitem : Item (!awaited.isEmpty) item) (h : Closes awaited v) : Closes awaited (item ++ v) := by
  -- the item comes first among those of the top level, or of the innermost group
  cases awaited with
  | nil =>
    obtain ⟨items, hitems, hv⟩ := h
    refine ⟨item :: items, List.forall_mem_cons.2 ⟨hitem, hitems⟩, ?_⟩
    rcases hv with rfl | rfl <;> simp
  | cons close outer =>
    obtain ⟨items, rest, hitems, rfl, hrest⟩ := h
    exact ⟨item :: items, rest, List.forall_mem_cons.2 ⟨hitem, hitems⟩, by simp, hrest⟩

/-- One more escape in front, whether a quote is open or not. -/
theorem ClosesQuote.cons_escape {awaited : List Char} {quote : Option Char} {v : Text} (c : Char)
    (h : ClosesQuote awaited quote v) : ClosesQuote awaited quote ('\\' :: c :: v) := by
  cases quote with
  | none => exact Closes.append_item (.escape c) h
  | some q =>
    obtain ⟨t, rest, ht, rfl, hrest⟩ := h
    exact ⟨'\\' :: c :: t, rest, .escape c ht, rfl, hrest⟩

/-- One more character in front, within an open quote. -/
theorem closesQuote_cons_of_step {awaited : List Char} {quote c : Char} {r : Reader} {v : Text}
    (hescape : c ≠ '\\') (hstep : (Reader.mk awaited (some quote) false).step c = some r)
    (h : r.Completes v) : ClosesQuote awaited (some quote) (c :: v) := by
  -- the quote ends the string here, or the character is one more of its text
  by_cases hquote : c = quote
  · subst hquote
    have hr : r = ⟨awaited, none, false⟩ := by simpa [Reader.step, hescape] using hstep.symm
    subst hr
    exact ⟨[], v, .nil, rfl, h⟩
  · have hr : r = ⟨awaited, some quote, false⟩ := by
      simpa [Reader.step, hescape, hquote] using hstep.symm
    subst hr
    obtain ⟨t, rest, ht, rfl, hrest⟩ := h
    exact ⟨c :: t, rest, .cons hquote hescape ht, rfl, hrest⟩

/-- One more character in front, outside of escapes and quotes. -/
theorem closes_cons_of_stepPlain {awaited : List Char} {c : Char} {r : Reader} {v : Text}
    (hescape : c ≠ '\\') (hstep : (Reader.mk awaited none false).stepPlain c = some r)
    (h : r.Completes v) : Closes awaited (c :: v) := by
  rcases (Reader.stepPlain_eq_some_iff hescape).1 hstep with ⟨hquote, rfl⟩ | ⟨close, hpair, rfl⟩ |
    ⟨opener, outer, -, hawaited, rfl⟩ | ⟨hplain, hsemicolon, rfl⟩
  · -- the quoted string that begins here is an item
    obtain ⟨t, rest, ht, hv, hrest⟩ := h
    obtain rfl : v = t ++ c :: rest := hv
    have hitem := hrest.append_item (.quoted hquote ht)
    simpa using hitem
  · -- so is the group that begins here
    obtain ⟨items, rest, hitems, hv, hrest⟩ := h
    obtain rfl : v = items.flatten ++ close :: rest := hv
    have hitem := hrest.append_item (.group hpair hitems)
    simpa using hitem
  · -- the group that is awaited to close ends here, with no item in between
    obtain rfl : awaited = c :: outer := hawaited
    exact ⟨[], v, by simp, rfl, h⟩
  · have hitem : Item (!awaited.isEmpty) [c] := by
      refine .plain hplain ?_
      intro hc
      simpa using hsemicolon hc
    exact Closes.append_item hitem h

/-- What a reader has read that has come to rest. -/
theorem completes_of_read {r r' : Reader} {v : Text} (h : r.read v = some r')
    (hrest : r'.atRest = true) : r.Completes v := by
  -- from the end of the text to its start: each character extends what stands behind it
  induction v generalizing r with
  | nil =>
    obtain rfl : r = r' := Option.some.inj h
    obtain ⟨awaited, quote, escaped⟩ := r
    simp only [Reader.atRest, Bool.and_eq_true, List.isEmpty_iff,
      Option.isNone_iff_eq_none] at hrest
    obtain ⟨rfl, rfl⟩ := hrest
    refine ⟨[], by simp, ?_⟩
    cases escaped <;> simp
  | cons c v ih =>
    obtain ⟨next, hstep, hread⟩ := Option.bind_eq_some_iff.1 h
    have hnext := ih hread
    obtain ⟨awaited, quote, escaped⟩ := r
    cases escaped with
    -- an escape that is pending has its backslash in front of the text
    | true =>
      obtain rfl : _ = next := Option.some.inj hstep
      exact hnext.cons_escape c
    | false =>
      by_cases hescape : c = '\\'
      · -- the pending escape is this very backslash
        subst hescape
        obtain rfl : _ = next := Option.some.inj hstep
        exact hnext
      · cases quote with
        | none =>
          rw [Reader.step_eq_stepPlain hescape] at hstep
          exact closes_cons_of_stepPlain hescape hstep hnext
        | some quote => exact closesQuote_cons_of_step hescape hstep hnext

/-! ## Validity -/

/-- A value is valid exactly if it is not empty and is a sequence of items of the top level, with a
    lone backslash behind them or not. -/
theorem isValid_iff_items {v : Text} :
    isValid v = true ↔
      v ≠ [] ∧ ∃ items : List Text, (∀ item ∈ items, Item false item) ∧
        (v = items.flatten ∨ v = items.flatten ++ ['\\']) := by
  -- a text is valid if reading it succeeds and the reader comes to rest
  have hvalid : isValid v = true ↔
      v ≠ [] ∧ ∃ r, Reader.start.read v = some r ∧ r.atRest = true := by
    unfold isValid
    cases Reader.start.read v <;> simp
  rw [hvalid]
  apply and_congr_right
  intro _
  constructor
  · intro h
    obtain ⟨r, hread, hrest⟩ := h
    exact completes_of_read hread hrest
  · intro h
    obtain ⟨items, hitems, hv⟩ := h
    have hread : Reader.start.read items.flatten = some .start :=
      Reader.read_flatten fun item hitem => Reader.read_item (hitems item hitem) (by simp)
    rcases hv with rfl | rfl
    · exact ⟨.start, hread, rfl⟩
    · -- the escape stays pending, and a reader may rest on it
      refine ⟨⟨[], none, true⟩, ?_, rfl⟩
      rw [Reader.read_append, hread]
      rfl

end UtilityClass.Value
