import UtilityClass.Text.CodeRange

/-!
# Blanks

A *blank* is a white-space character of Unicode or one of the four ASCII information separators.
A text is read as *words* by cutting it at blanks; `words_nonblank` says that a word is not empty
and holds no blank.
-/

namespace UtilityClass.Text

/-- The blanks, as closed ranges of codes in rising order. -/
def blankRanges : List (Nat × Nat) := [
  (0x09, 0x0D), (0x1C, 0x20), (0x85, 0x85), (0xA0, 0xA0), (0x1680, 0x1680), (0x2000, 0x200A),
  (0x2028, 0x2029), (0x202F, 0x202F), (0x205F, 0x205F), (0x3000, 0x3000)]

/-- A white-space character, or an information separator (codes 28 to 31). -/
def isBlank (c : Char) : Bool := inRanges blankRanges c

/-- The text without the blanks at either end. -/
def strip (t : Text) : Text := trim isBlank t

/-- The parts of the text between blanks. -/
def words (t : Text) : List Text := (t.splitOnP isBlank).filter (! ·.isEmpty)

/-- No part of a cut list holds an element at which the list is cut. -/
theorem forall_not_of_mem_splitOnP {α : Type} {p : α → Bool} {xs ys : List α}
    (h : ys ∈ xs.splitOnP p) : ∀ x ∈ ys, p x = false := by
  induction xs generalizing ys with
  | nil => simp_all
  | cons a rest ih =>
    rw [List.splitOnP_cons_eq_if_modifyHead] at h
    split at h
    · rcases List.mem_cons.1 h with rfl | h
      · simp
      · exact ih h
    · next ha =>
      match hs : rest.splitOnP p with
      | [] => exact absurd hs (List.splitOnP_ne_nil _ _)
      | first :: more =>
        rw [hs, List.modifyHead_cons] at h
        rcases List.mem_cons.1 h with rfl | h
        · intro x hx
          rcases List.mem_cons.1 hx with rfl | hx
          · simpa using ha
          · exact ih (by rw [hs]; exact List.mem_cons_self) x hx
        · exact ih (by rw [hs]; exact List.mem_cons_of_mem _ h)

/-- A word is not empty and holds no blank. -/
theorem words_nonblank {t w : Text} (h : w ∈ words t) :
    w ≠ [] ∧ ∀ c ∈ w, isBlank c = false := by
  rw [words, List.mem_filter] at h
  exact ⟨by simpa using h.2, forall_not_of_mem_splitOnP h.1⟩

end UtilityClass.Text
