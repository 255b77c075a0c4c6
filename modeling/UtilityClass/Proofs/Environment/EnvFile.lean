import UtilityClass.Environment.EnvFile
import UtilityClass.Proofs.Ledger
import UtilityClass.Proofs.Text.Ascii
import UtilityClass.Proofs.Text.Blank
import UtilityClass.Proofs.Text.Cut
import UtilityClass.Proofs.Text.Digit
import UtilityClass.Proofs.Text.Lines

/-!
# Reading written environment files

A file is written as assignments `KEY="value"`, with or without `export`, among lines that assign
nothing.  Reading it gives each key its last value, in the order in which the keys first come; but a
value loses the single quotes at its ends, since those are taken away too once the double quotes are
gone.

## Key results

- `assignment?_text`: an assignment is read back, without the single quotes at the ends of its value
- `assignment?_of_isIdle`: other lines assign nothing
- `read_write`: what is read from a written file, and when it is what was written
-/

namespace UtilityClass.EnvFile

/-! ## Written files -/

/-- Whether a character can be in a key. -/
def isKeyChar (c : Char) : Bool := Text.isAsciiAlphanumeric c || c == '_'

/-- An assignment with its value in double quotes. -/
structure Assignment where
  exported : Bool
  key : Text
  value : Text
  key_ne_nil : key ≠ []
  isKeyChar_key : ∀ c ∈ key, isKeyChar c = true
  quote_not_mem : '"' ∉ value
  isLine_value : Text.IsLine value

namespace Assignment

/-- The left side of an assignment. -/
def left (a : Assignment) : Text := (if a.exported then exportLead else []) ++ a.key

/-- The right side of an assignment. -/
def right (a : Assignment) : Text := '"' :: a.value ++ ['"']

def text (a : Assignment) : Text := a.left ++ '=' :: a.right

end Assignment

/-- A line that assigns nothing: it is blank, or a comment, or has no equals sign. -/
def IsIdle (t : Text) : Prop :=
  (∀ c ∈ t, Text.isBlank c = true) ∨
  (∃ lead comment, (∀ c ∈ lead, Text.isBlank c = true) ∧ t = lead ++ '#' :: comment) ∨ '=' ∉ t

/-- A line of an environment file. -/
inductive Line where
  | assigning (a : Assignment)
  | idle (t : Text) (isIdle : IsIdle t) (isLine : Text.IsLine t)

namespace Line

def text : Line → Text
  | assigning a => a.text
  | idle t _ _ => t

/-- The key and the value on a line. -/
def pair? : Line → Option (Text × Text)
  | assigning a => some (a.key, a.value)
  | idle _ _ _ => none

end Line

/-- A file of lines, all of which end in the same way; the last one may have no end. -/
def write (e : Text.LineEnd) (ls : List Line) : Text := e.text.intercalate (ls.map Line.text)

/-- The keys and values that lines assign, in order. -/
def pairs (ls : List Line) : List (Text × Text) := ls.filterMap Line.pair?

/-- A value without the single quotes at its ends. -/
def unquoted (value : Text) : Text := Text.trim (· == '\'') value

/-- A value has nothing to lose if there is no single quote at its ends. -/
theorem unquoted_eq_self_iff {v : Text} :
    unquoted v = v ↔ v.head? ≠ some '\'' ∧ v.getLast? ≠ some '\'' := by
  have hnone (o : Option Char) : o.any (· == '\'') = false ↔ o ≠ some '\'' := by
    cases o <;> simp
  rw [unquoted, Text.trim_eq_self_iff, hnone, hnone]

/-! ## Assignments -/

/-- A character of a key is no blank, begins no comment, and is no equals sign. -/
theorem ne_of_isKeyChar {c : Char} (h : isKeyChar c = true) :
    Text.isBlank c = false ∧ c ≠ '#' ∧ c ≠ '=' := by
  refine ⟨?_, ?_, ?_⟩
  -- letters, digits and underscores are apart from blanks
  · rw [isKeyChar, Bool.or_eq_true, Text.isAsciiAlphanumeric_iff, beq_iff_eq] at h
    rcases h with (hletter | hdigit) | rfl
    · exact Text.isBlank_of_isAsciiLetter hletter
    · exact Text.isBlank_of_isDecimal (Text.isDecimal_of_isDigit hdigit)
    · decide
  all_goals
    rintro rfl
    exact absurd h (by decide)

namespace Assignment

variable (a : Assignment)

/-- Neither end of a key is blank. -/
theorem strip_key : Text.strip a.key = a.key := by
  apply Text.strip_eq_self
  -- each end of a key, if there is one, is a character of the key
  · cases hhead : a.key.head? with
    | none => rfl
    | some c => exact (ne_of_isKeyChar (a.isKeyChar_key c (List.mem_of_head? hhead))).1
  · cases hlast : a.key.getLast? with
    | none => rfl
    | some c => exact (ne_of_isKeyChar (a.isKeyChar_key c (List.mem_of_getLast? hlast))).1

/-- The left side begins as a key or the word in front of it does. -/
theorem exists_left_eq_cons :
    ∃ c rest, a.left = c :: rest ∧ Text.isBlank c = false ∧ c ≠ '#' := by
  rw [left]
  cases a.exported with
  | true => exact ⟨'e', "xport ".toList ++ a.key, rfl, by decide, by decide⟩
  | false =>
    obtain ⟨c, rest, hkey⟩ := List.exists_cons_of_ne_nil a.key_ne_nil
    obtain ⟨hblank, hcomment, -⟩ :=
      ne_of_isKeyChar (a.isKeyChar_key c (hkey ▸ List.mem_cons_self))
    exact ⟨c, rest, hkey, hblank, hcomment⟩

/-- The left side has no equals sign. -/
theorem equals_not_mem_left : '=' ∉ a.left := by
  rw [left, List.mem_append, not_or]
  refine ⟨?_, fun hmem => (ne_of_isKeyChar (a.isKeyChar_key '=' hmem)).2.2 rfl⟩
  cases a.exported <;> decide

/-- The key is read back from the left side. -/
theorem keyOf_left : keyOf a.left = a.key := by
  have hstrip : Text.strip a.left = a.left := by
    obtain ⟨c, rest, hleft, hblank, -⟩ := a.exists_left_eq_cons
    apply Text.strip_eq_self
    · rw [hleft]
      exact hblank
    · -- the left side ends as the key does
      have hlast := Text.getLast?_strip a.key
      rw [a.strip_key] at hlast
      rw [left, List.getLast?_append_of_ne_nil _ a.key_ne_nil]
      exact hlast
  have hkey : (exportLead.isPrefixOf? a.left).getD a.left = a.key := by
    rw [left]
    cases a.exported with
    -- a key has no blank, so it does not begin like the word in front
    | true =>
      rw [if_pos rfl, (Text.isPrefixOf?_eq_some_iff exportLead _ a.key).2 rfl, Option.getD_some]
    | false =>
      have hnone : exportLead.isPrefixOf? a.key = none := by
        rw [Text.isPrefixOf?_eq_none_iff]
        intro hfront
        have hspace : ' ' ∈ a.key := hfront.subset (by decide)
        exact absurd (ne_of_isKeyChar (a.isKeyChar_key ' ' hspace)).1 (by decide)
      rw [if_neg Bool.false_ne_true, List.nil_append, hnone, Option.getD_none]
  rw [keyOf, hstrip, hkey, a.strip_key]

/-- The value is read back from the right side, without the single quotes at its ends. -/
theorem valueOf_right : valueOf a.right = unquoted a.value := by
  -- both ends of the right side are quotes, which are no blanks
  have hstrip : Text.strip a.right = a.right := by
    apply Text.strip_eq_self
    · rw [right]
      rfl
    · rw [right, List.getLast?_append_of_ne_nil _ (List.cons_ne_nil _ _)]
      decide
  have hvalue : Text.trim (· == '"') a.right = a.value := by
    apply Text.trim_enclosed
    · rfl
    · rfl
    · intro c hc
      exact beq_false_of_ne fun heq => a.quote_not_mem (heq ▸ hc)
  rw [valueOf, hstrip, hvalue, unquoted]

/-- No blank is at the ends of an assignment. -/
theorem strip_text : Text.strip a.text = a.text := by
  obtain ⟨c, rest, hleft, hblank, -⟩ := a.exists_left_eq_cons
  apply Text.strip_eq_self
  · rw [text, hleft]
    exact hblank
  · rw [text, right, ← List.cons_append, ← List.append_assoc,
      List.getLast?_append_of_ne_nil _ (List.cons_ne_nil _ _)]
    decide

/-- An assignment is read back, but for the single quotes at the ends of its value. -/
theorem assignment?_text : assignment? a.text = some (a.key, unquoted a.value) := by
  have hcomment : a.text.head? ≠ some '#' := by
    obtain ⟨c, rest, hleft, -, hne⟩ := a.exists_left_eq_cons
    rw [text, hleft]
    exact fun heq => hne (Option.some.inj heq)
  -- the line is cut at its first equals sign, which is the one behind the key
  have hcut : Text.cut? ['='] a.text = some (a.left, a.right) :=
    Text.cut?_singleton_iff.2 ⟨rfl, a.equals_not_mem_left⟩
  rw [assignment?, a.strip_text, if_neg hcomment, hcut]
  show (if keyOf a.left = [] then none else some (keyOf a.left, valueOf a.right)) = _
  rw [a.keyOf_left, a.valueOf_right, if_neg a.key_ne_nil]

/-- No line is broken inside of an assignment. -/
theorem isLine_text : Text.IsLine a.text := by
  have hkey : Text.IsLine a.key := by
    intro c hc
    exact Text.breaksLine_of_nonblank (ne_of_isKeyChar (a.isKeyChar_key c hc)).1
  have hlead : Text.IsLine (if a.exported then exportLead else []) := by
    cases a.exported <;> decide
  have hquote : Text.IsLine ['"'] := by decide
  have hright : Text.IsLine a.right :=
    List.forall_mem_append.2 ⟨List.forall_mem_cons.2 ⟨by decide, a.isLine_value⟩, hquote⟩
  exact List.forall_mem_append.2
    ⟨List.forall_mem_append.2 ⟨hlead, hkey⟩, List.forall_mem_cons.2 ⟨by decide, hright⟩⟩

end Assignment

/-! ## Other lines -/

/-- A line that assigns nothing is passed over. -/
theorem assignment?_of_isIdle {t : Text} (h : IsIdle t) : assignment? t = none := by
  -- the three kinds of idle lines: blank, comment, and no equals sign
  rcases h with hblank | ⟨lead, comment, hlead, rfl⟩ | hequals
  · rw [assignment?, Text.strip_eq_nil_iff.2 hblank]
    rfl
  · have hhead : (Text.strip (lead ++ '#' :: comment)).head? = some '#' := by
      have hdrop : Text.strip (lead ++ '#' :: comment) = Text.strip ('#' :: comment) := by
        rw [Text.strip, Text.strip, Text.trim, Text.trim, List.dropWhile_append_of_pos hlead]
      obtain ⟨rest, hrest⟩ : ['#'] <+: Text.strip ('#' :: comment) :=
        Text.prefix_strip (List.forall_mem_singleton.2 (by decide)) ⟨comment, rfl⟩
      rw [hdrop, ← hrest]
      rfl
    rw [assignment?]
    exact if_pos hhead
  · have hcut : Text.cut? ['='] (Text.strip t) = none := by
      rw [Text.cut?_eq_none_iff, List.singleton_infix_iff]
      exact fun hmem => hequals ((Text.strip_infix t).subset hmem)
    rw [assignment?, hcut]
    split <;> rfl

/-! ## Files -/

/-- No line is broken inside of a line. -/
theorem Line.isLine_text (l : Line) : Text.IsLine l.text := by
  cases l with
  | assigning a => exact a.isLine_text
  | idle t _ isLine => exact isLine

/-- What a line assigns is read back, but for the single quotes at the ends of the value. -/
theorem Line.assignment?_text (l : Line) :
    assignment? l.text = l.pair?.map fun p => (p.1, unquoted p.2) := by
  cases l with
  | assigning a => exact a.assignment?_text
  | idle t isIdle _ => exact assignment?_of_isIdle isIdle

/-- The lines of a written file give its assignments, whatever they end in. -/
theorem read_unifyBreaks_write (e : Text.LineEnd) (ls : List Line) :
    read (Text.unifyBreaks (write e ls)) =
      .ofList ((pairs ls).map fun p => (p.1, unquoted p.2)) := by
  have hlines : ∀ t ∈ ls.map Line.text, Text.IsLine t := by
    rw [List.forall_mem_map]
    exact fun l _ => l.isLine_text
  -- each line is read as its pair, less the single quotes
  have hassigned : (ls.map Line.text).filterMap assignment? =
      (pairs ls).map fun p => (p.1, unquoted p.2) := by
    rw [List.filterMap_map, pairs, List.map_filterMap]
    exact List.filterMap_congr fun l _ => l.assignment?_text
  rw [read, write, Text.unifyBreaks_intercalate e hlines, ← hassigned]
  -- a last line that is empty is lost, and assigns nothing
  rcases Text.lines_intercalate hlines with heq | heq
  · rw [heq]
  · conv => rhs; rw [heq, List.filterMap_append]
    have hnone : [([] : Text)].filterMap assignment? = [] := rfl
    rw [hnone, List.append_nil]

/-- The keys of a written file are read in the order in which they first come, and each with its
    last value, without the single quotes at its ends.  So the values are read as they were written
    exactly if no last value begins or ends in a single quote. -/
theorem read_write (e : Text.LineEnd) (ls : List Line) :
    ∃ env, (Text.ofBytes? (String.ofList (write e ls)).toUTF8).map read = some env ∧
      env.keys = ((pairs ls).map Prod.fst).eraseDups ∧
      (∀ k, env.find? k = ((pairs ls).reverse.lookup k).map unquoted) ∧
      ((∀ k, env.find? k = (pairs ls).reverse.lookup k) ↔
        ∀ k v, (pairs ls).reverse.lookup k = some v →
          v.head? ≠ some '\'' ∧ v.getLast? ≠ some '\'') := by
  have hread : (Text.ofBytes? (String.ofList (write e ls)).toUTF8).map read =
      some (.ofList ((pairs ls).map fun p => (p.1, unquoted p.2))) := by
    rw [Text.ofBytes?_toUTF8, String.toList_ofList, Option.map_some, read_unifyBreaks_write]
  have hfind (k : Text) : Ledger.find? (.ofList ((pairs ls).map fun p => (p.1, unquoted p.2))) k =
      ((pairs ls).reverse.lookup k).map unquoted := by
    rw [Ledger.find?_ofList, ← List.map_reverse, Ledger.lookup_map]
  refine ⟨_, hread, ?_, hfind, ?_⟩
  · rw [Ledger.keys_ofList, List.map_map]
    rfl
  -- values are read as they were written if each last one is left as it is
  · constructor
    · intro hsame k v hv
      have hvalue := hsame k
      rw [hfind, hv, Option.map_some, Option.some.injEq] at hvalue
      exact unquoted_eq_self_iff.1 hvalue
    · intro hends k
      rw [hfind]
      cases hv : (pairs ls).reverse.lookup k with
      | none => rfl
      | some v => rw [Option.map_some, unquoted_eq_self_iff.2 (hends k v hv)]

/-- Single quotes inside of the double quotes are lost. -/
example : (read "A=\"'a'\"").entries = [("A".toList, "a".toList)] := by decide +kernel

end UtilityClass.EnvFile
