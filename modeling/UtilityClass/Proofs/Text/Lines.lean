import UtilityClass.Text.Blank
import UtilityClass.Text.Utf8

/-!
# Lines of written texts

A file of text may end its lines in line feeds, carriage returns or both.  Once it is read, each
line ends in a line feed, and cutting it gives the lines that were written, except for a last one
that is empty.

## Key results

- `ofBytes?_toUTF8`: the bytes of a string are read as the string
- `unifyBreaks_intercalate`: whatever ends the lines of a file is read as a line feed
- `lines_intercalate`: the lines between line feeds
-/

namespace UtilityClass.Text

/-- The bytes of a string are the text of the string. -/
theorem ofBytes?_toUTF8 (s : String) : ofBytes? s.toUTF8 = some (unifyBreaks s.toList) := by
  have hvalid : String.fromUTF8? s.toUTF8 = some s := dif_pos s.isValidUTF8
  rw [ofBytes?, hvalid]
  rfl

/-- A line: nothing in a text breaks it. -/
def IsLine (t : Text) : Prop := ∀ c ∈ t, breaksLine c = false

instance (t : Text) : Decidable (IsLine t) := List.decidableBAll _ t

variable {t : Text}

/-- A character that breaks no line is neither a carriage return nor a line feed. -/
theorem ne_of_breaksLine {c : Char} (h : breaksLine c = false) : c ≠ '\r' ∧ c ≠ '\n' := by
  constructor <;> (rintro rfl; exact absurd h (by decide))

/-- Every character that breaks lines is blank. -/
theorem breaksLine_of_nonblank {c : Char} (h : isBlank c = false) : breaksLine c = false := by
  have hblank : ∀ c ∈ ['\n', '\r', '\x0b', '\x0c', '\x1c', '\x1d', '\x1e', '\u0085', '\u2028',
      '\u2029'], isBlank c = true := List.all_eq_true.1 (by decide)
  rw [breaksLine, decide_eq_false_iff_not]
  intro hmem
  rw [hblank c hmem] at h
  exact nomatch h

/-! ## Cutting -/

/-- A character that breaks no line belongs to the first line of the rest. -/
theorem lines_cons {c : Char} (h : breaksLine c = false) (rest : Text) :
    lines (c :: rest) = consLine c (lines rest) := by
  rw [lines, h]
  -- the equation for a carriage return and a line feed is not the one that applies
  · rfl
  · rintro more rfl -
    exact (ne_of_breaksLine h).1 rfl

/-- A line feed ends the line in front of it. -/
theorem lines_append_feed (h : IsLine t) (rest : Text) :
    lines (t ++ '\n' :: rest) = t :: lines rest := by
  induction t with
  | nil => rfl
  | cons c more ih =>
    obtain ⟨hc, hmore⟩ := List.forall_mem_cons.1 h
    rw [List.cons_append, lines_cons hc, ih hmore]
    rfl

/-- A line without an end is a line if it is not empty. -/
theorem lines_of_isLine (h : IsLine t) (hne : t ≠ []) : lines t = [t] := by
  induction t with
  | nil => exact absurd rfl hne
  | cons c more ih =>
    obtain ⟨hc, hmore⟩ := List.forall_mem_cons.1 h
    rw [lines_cons hc]
    -- the equation of `lines` for an empty rest gives no line to put the character into
    by_cases hmore_ne : more = []
    · rw [hmore_ne]
      rfl
    · rw [ih hmore hmore_ne]
      rfl

/-- The lines between line feeds are all there, except for a last one that is empty. -/
theorem lines_intercalate {ts : List Text} (h : ∀ t ∈ ts, IsLine t) :
    lines (['\n'].intercalate ts) = ts ∨ ts = lines (['\n'].intercalate ts) ++ [[]] := by
  induction ts with
  | nil => exact .inl rfl
  | cons t more ih =>
    obtain ⟨ht, hmore⟩ := List.forall_mem_cons.1 h
    cases more with
    | nil =>
      rw [List.intercalate_singleton]
      -- an empty line at the end is the one that is not there
      by_cases hne : t = []
      · rw [hne]
        exact .inr rfl
      · exact .inl (lines_of_isLine ht hne)
    | cons u rest =>
      rw [List.intercalate_cons_cons, List.append_assoc, List.singleton_append,
        lines_append_feed ht]
      -- the line in front is there either way
      rcases ih hmore with heq | heq
      · exact .inl (congrArg (t :: ·) heq)
      · exact .inr (congrArg (t :: ·) heq)

/-! ## Line ends -/

/-- What the lines of a file may end in. -/
inductive LineEnd where
  | lineFeed
  | carriageReturn
  | both
  deriving DecidableEq, Repr

/-- What such an end is written as. -/
def LineEnd.text : LineEnd → Text
  | lineFeed => ['\n']
  | carriageReturn => ['\r']
  | both => ['\r', '\n']

/-- The characters of a line are read as they are. -/
theorem unifyBreaks_append (h : IsLine t) (rest : Text) :
    unifyBreaks (t ++ rest) = t ++ unifyBreaks rest := by
  induction t with
  | nil => rfl
  | cons c more ih =>
    obtain ⟨hc, hmore⟩ := List.forall_mem_cons.1 h
    obtain ⟨hreturn, -⟩ := ne_of_breaksLine hc
    rw [List.cons_append, unifyBreaks, if_neg hreturn, ih hmore, List.cons_append]
    -- no character of a line is the carriage return of a pair
    rintro behind rfl -
    exact hreturn rfl

/-- A line end is read as a line feed, unless a line feed that follows is part of it. -/
theorem unifyBreaks_lineEnd (e : LineEnd) {rest : Text} (h : rest.head? ≠ some '\n') :
    unifyBreaks (e.text ++ rest) = '\n' :: unifyBreaks rest := by
  cases e with
  | lineFeed => rfl
  | both => rfl
  | carriageReturn =>
    show unifyBreaks ('\r' :: rest) = _
    rw [unifyBreaks, if_pos rfl]
    rintro behind - rfl
    exact h rfl

/-- No line begins with a line feed, and neither does the end of an empty line, unless it is one. -/
theorem head?_intercalate_ne {e : LineEnd} (he : e ≠ .lineFeed) {ts : List Text}
    (h : ∀ t ∈ ts, IsLine t) : (e.text.intercalate ts).head? ≠ some '\n' := by
  cases ts with
  | nil => exact nofun
  | cons t more =>
    -- the first character is that of the first line, or of the end behind it if that line is empty
    cases t with
    | cons c front =>
      have hc := (ne_of_breaksLine (h (c :: front) List.mem_cons_self c List.mem_cons_self)).2
      cases more <;> simpa using hc
    | nil =>
      cases more with
      | nil => exact nofun
      | cons u rest =>
        rw [List.intercalate_cons_cons]
        cases e with
        | lineFeed => exact absurd rfl he
        | carriageReturn | both => exact fun hfeed => absurd (Option.some.inj hfeed) (by decide)

/-- Whatever ends the lines of a file is read as a line feed. -/
theorem unifyBreaks_intercalate (e : LineEnd) {ts : List Text} (h : ∀ t ∈ ts, IsLine t) :
    unifyBreaks (e.text.intercalate ts) = ['\n'].intercalate ts := by
  induction ts with
  | nil => rfl
  | cons t more ih =>
    obtain ⟨ht, hmore⟩ := List.forall_mem_cons.1 h
    cases more with
    | nil =>
      rw [List.intercalate_singleton, List.intercalate_singleton]
      simpa [unifyBreaks] using unifyBreaks_append ht []
    | cons u rest =>
      rw [List.intercalate_cons_cons, List.intercalate_cons_cons, List.append_assoc,
        unifyBreaks_append ht, List.append_assoc]
      congr 1
      by_cases he : e = .lineFeed
      · -- a line feed stays what it is, whatever follows
        rw [← ih hmore, he]
        rfl
      · rw [unifyBreaks_lineEnd e (head?_intercalate_ne he hmore), ih hmore]
        rfl

end UtilityClass.Text
