/-!
# Text

A text is the list of its characters in reading order.  This module holds the cuts that the later
stages share: the leftmost occurrence of a part (`cut?`), the text without a final line break
(`chomp`) and the text between two borders (`enclosed?`).

Readers that go on behind a cut end because a cut leaves no more than there was
(`length_le_of_cut?`).
-/

namespace UtilityClass

/-- A text is the list of its characters. -/
abbrev Text := List Char

/-- A string literal stands for the list of its characters. -/
instance : Coe String Text := ⟨String.toList⟩

namespace Text

/-- What follows a part is shorter than the text by that part. -/
theorem length_of_isPrefixOf? {part t rest : Text} (h : part.isPrefixOf? t = some rest) :
    t.length = part.length + rest.length := by
  induction part generalizing t with
  | nil =>
    have hall : t = rest := Option.some.inj h
    rw [hall, List.length_nil, Nat.zero_add]
  | cons c more ih =>
    cases t with
    | nil => exact absurd h (Option.some_ne_none rest).symm
    | cons d t =>
      have hstep : (if c == d then more.isPrefixOf? t else none) = some rest := h
      have hmore := (Option.ite_none_right_eq_some.1 hstep).2
      rw [List.length_cons, List.length_cons, ih hmore, Nat.add_right_comm]

/-- Whether `part` stands somewhere in the text. -/
def occurs (part : Text) : Text → Bool
  | [] => part.isEmpty
  | c :: rest => part.isPrefixOf (c :: rest) || occurs part rest

/-- What stands before and after the leftmost `part`, if the text has one. -/
def cut? (part : Text) : Text → Option (Text × Text)
  | [] => (part.isPrefixOf? []).map fun after => ([], after)
  | c :: rest =>
    match part.isPrefixOf? (c :: rest) with
    | some after => some ([], after)
    | none => (cut? part rest).map fun (before, after) => (c :: before, after)

/-- A cut leaves no more than there was: what stands after the part is a part of the text. -/
theorem length_le_of_cut? {part t front after : Text} (h : cut? part t = some (front, after)) :
    after.length ≤ t.length := by
  induction t generalizing front with
  | nil =>
    obtain ⟨rest, hrest, heq⟩ := Option.map_eq_some_iff.1 h
    rw [length_of_isPrefixOf? hrest, (Prod.mk.inj heq).2]
    exact Nat.le_add_left _ _
  | cons c rest ih =>
    rw [cut?] at h
    split at h
    · next hafter =>
      rw [length_of_isPrefixOf? hafter, (Prod.mk.inj (Option.some.inj h)).2]
      exact Nat.le_add_left _ _
    · obtain ⟨⟨front', after'⟩, hcut, heq⟩ := Option.map_eq_some_iff.1 h
      obtain ⟨-, rfl⟩ := Prod.mk.inj heq
      exact Nat.le_succ_of_le (ih hcut)

/-- What stands before the leftmost `part`, or the whole text. -/
def before (part t : Text) : Text :=
  match cut? part t with
  | some (front, _) => front
  | none => t

/-- What stands after the last `mark`, or the whole text. -/
def afterLast (mark : Char) (t : Text) : Text :=
  (t.reverse.takeWhile (· ≠ mark)).reverse

/-- The text without the line feed that ends it, if one does. -/
def chomp (t : Text) : Text :=
  if t.getLast? = some '\n' then t.dropLast else t

/-- The text without the characters of a class at its end. -/
def trimEnd (p : Char → Bool) (t : Text) : Text := (t.reverse.dropWhile p).reverse

/-- The text without the characters of a class at either end. -/
def trim (p : Char → Bool) (t : Text) : Text := trimEnd p (t.dropWhile p)

/-- What stands between a leading `lead` and a final `close`, if the text has both apart. -/
def enclosed? (lead : Text) (close : Char) (t : Text) : Option Text :=
  match lead.isPrefixOf? t with
  | some rest => if rest.getLast? = some close then some rest.dropLast else none
  | none => none

/-- The decimal digits of a number. -/
def ofNat (n : Nat) : Text := Nat.toDigits 10 n

end Text

end UtilityClass
