import Mathlib.Data.List.TakeWhile
import UtilityClass.Text.Blank

/-!
# Texts without the blanks at their ends

## Key results

- `exists_eq_append_strip`: what is taken off a text is blank
- `strip_eq_nil_iff`: which texts are all blank
- `strip_concat`: a text that does not end in a blank loses those at its front alone
- `head?_strip` / `getLast?_strip`: no blank is left at either end
- `strip_eq_self`: a text without blanks at its ends stays as it is
- `trim_eq_self_iff` / `trim_enclosed`: the same for any class of characters
-/

namespace UtilityClass.Text

/-- Blanks are all that is taken off a text. -/
theorem exists_eq_append_strip (t : Text) :
    ∃ lead trail : Text, (∀ c ∈ lead, isBlank c = true) ∧ (∀ c ∈ trail, isBlank c = true) ∧
      t = lead ++ strip t ++ trail := by
  -- the blanks at the front, and those at the end of what is left
  refine ⟨t.takeWhile isBlank, ((t.dropWhile isBlank).reverse.takeWhile isBlank).reverse,
    ?_, ?_, ?_⟩
  · exact List.all_eq_true.1 List.all_takeWhile
  · exact fun c hc => List.all_eq_true.1 List.all_takeWhile c (List.mem_reverse.1 hc)
  · rw [strip, trim, trimEnd, List.append_assoc, ← List.reverse_append,
      List.takeWhile_append_dropWhile, List.reverse_reverse, List.takeWhile_append_dropWhile]

/-- Nothing is left of a text exactly if it is all blank. -/
theorem strip_eq_nil_iff {t : Text} : strip t = [] ↔ ∀ c ∈ t, isBlank c = true := by
  constructor
  · intro h c hc
    obtain ⟨lead, trail, hlead, htrail, ht⟩ := exists_eq_append_strip t
    rw [ht, h, List.append_nil] at hc
    exact (List.mem_append.1 hc).elim (hlead c) (htrail c)
  · intro h
    rw [strip, trim, trimEnd, List.dropWhile_eq_nil_iff.2 h]
    rfl

/-- A text that does not end in a blank loses those at its front alone. -/
theorem strip_concat {c : Char} (h : isBlank c = false) (t : Text) :
    strip (t ++ [c]) = t.dropWhile isBlank ++ [c] := by
  have hkept : [c].dropWhile isBlank = [c] :=
    List.dropWhile_cons_of_neg (by rw [h]; exact Bool.false_ne_true)
  have hfront : (t ++ [c]).dropWhile isBlank = t.dropWhile isBlank ++ [c] := by
    -- the last character stops the blanks, unless all in front of it are blank
    rw [List.dropWhile_append]
    split
    · next hempty => rw [hkept, List.isEmpty_iff.1 hempty, List.nil_append]
    · rfl
  rw [strip, trim, hfront, trimEnd, List.reverse_concat,
    List.dropWhile_cons_of_neg (by rw [h]; exact Bool.false_ne_true), List.reverse_cons,
    List.reverse_reverse]

/-- A blank at the end of a text goes. -/
theorem strip_concat_of_blank {c : Char} (h : isBlank c = true) (t : Text) :
    strip (t ++ [c]) = strip t := by
  rw [strip, strip, trim, trim, List.dropWhile_append]
  split
  · next hempty => rw [List.isEmpty_iff.1 hempty, List.dropWhile_cons_of_pos h, List.dropWhile_nil]
  · rw [trimEnd, List.reverse_concat, List.dropWhile_cons_of_pos h, trimEnd]

/-! ## Ends -/

section Trim

variable {p : Char → Bool}

/-- No character of the class is in front once those are left out. -/
private theorem head?_dropWhile (p : Char → Bool) (t : Text) :
    (t.dropWhile p).head?.any p = false := by
  have hhead := List.head?_dropWhile_not p t
  cases hdrop : (t.dropWhile p).head? with
  | none => rfl
  | some c => rwa [hdrop] at hhead

/-- Where no character of the class is in front, none is left out. -/
private theorem dropWhile_eq_self {t : Text} (h : t.head?.any p = false) : t.dropWhile p = t := by
  cases t with
  | nil => rfl
  | cons c rest => exact List.dropWhile_cons_of_neg (by rw [Bool.not_eq_true]; exact h)

/-- No character of the class is left at the end of a trimmed text. -/
theorem getLast?_trim (p : Char → Bool) (t : Text) : (trim p t).getLast?.any p = false := by
  rw [trim, trimEnd, List.getLast?_reverse]
  exact head?_dropWhile p _

/-- No character of the class is left at the front of a trimmed text. -/
theorem head?_trim (p : Char → Bool) (t : Text) : (trim p t).head?.any p = false := by
  have hfront := head?_dropWhile p t
  -- what is taken off the end does not change the front
  obtain ⟨trail, htrail⟩ : trim p t <+: t.dropWhile p := by
    rw [trim, trimEnd, ← List.reverse_suffix, List.reverse_reverse]
    exact List.dropWhile_suffix p
  cases htrim : trim p t with
  | nil => rfl
  | cons c rest =>
    rw [← htrail, htrim] at hfront
    exact hfront

/-- A text stays as it is exactly if no character of the class is at its ends. -/
theorem trim_eq_self_iff {t : Text} :
    trim p t = t ↔ t.head?.any p = false ∧ t.getLast?.any p = false := by
  constructor
  · intro h
    rw [← h]
    exact ⟨head?_trim p t, getLast?_trim p t⟩
  · intro h
    have hlast := h.2
    rw [← List.head?_reverse] at hlast
    rw [trim, dropWhile_eq_self h.1, trimEnd, dropWhile_eq_self hlast, List.reverse_reverse]

/-- A text between two characters of a class that it does not have is all that is left. -/
theorem trim_enclosed {t : Text} {first last : Char} (hfirst : p first = true)
    (hlast : p last = true) (h : ∀ c ∈ t, p c = false) : trim p (first :: t ++ [last]) = t := by
  have hends (u : Text) (hu : ∀ c ∈ u, p c = false) : u.head?.any p = false := by
    cases u with
    | nil => rfl
    | cons c more => exact hu c List.mem_cons_self
  -- the first character goes, and then the last one, and the text keeps both of its ends
  rw [trim, List.cons_append, List.dropWhile_cons_of_pos hfirst, trimEnd]
  cases t with
  | nil => rw [List.nil_append, List.dropWhile_cons_of_pos hlast]; rfl
  | cons c more =>
    have hfront : (c :: more ++ [last]).dropWhile p = c :: more ++ [last] :=
      dropWhile_eq_self (h c List.mem_cons_self)
    rw [hfront, List.reverse_concat, List.dropWhile_cons_of_pos hlast, dropWhile_eq_self,
      List.reverse_reverse]
    exact hends _ fun d hd => h d (List.mem_reverse.1 hd)

end Trim

/-- No blank is left at the end of a text. -/
theorem getLast?_strip (t : Text) : (strip t).getLast?.any isBlank = false :=
  getLast?_trim isBlank t

/-- No blank is left at the front of a text. -/
theorem head?_strip (t : Text) : (strip t).head?.any isBlank = false := head?_trim isBlank t

/-- A text without blanks at its ends stays as it is. -/
theorem strip_eq_self {t : Text} (hhead : t.head?.any isBlank = false)
    (hlast : t.getLast?.any isBlank = false) : strip t = t :=
  trim_eq_self_iff.2 ⟨hhead, hlast⟩

/-- A trimmed text is a part of the text. -/
theorem strip_infix (t : Text) : strip t <:+: t := by
  obtain ⟨lead, trail, -, -, ht⟩ := exists_eq_append_strip t
  exact ⟨lead, trail, ht.symm⟩

/-- A word without blanks that begins a text is not touched. -/
theorem prefix_strip {w t : Text} (hw : ∀ c ∈ w, isBlank c = false) (h : w <+: t) :
    w <+: strip t := by
  obtain ⟨rest, rfl⟩ := h
  have hkept : w.reverse.dropWhile isBlank = w.reverse := by
    apply dropWhile_eq_self
    cases hlast : w.reverse.head? with
    | none => rfl
    | some c => exact hw c (List.mem_reverse.1 (List.mem_of_head? hlast))
  cases w with
  | nil => exact List.nil_prefix
  | cons c more =>
    have hfront : (c :: more ++ rest).dropWhile isBlank = c :: more ++ rest :=
      dropWhile_eq_self (hw c List.mem_cons_self)
    -- what is taken off the end ends behind the word
    rw [strip, trim, hfront, trimEnd, List.reverse_append, List.dropWhile_append, hkept]
    split
    · exact ⟨[], by rw [List.append_nil, List.reverse_reverse]⟩
    · rw [List.reverse_append, List.reverse_reverse]
      exact List.prefix_append _ _

end UtilityClass.Text
