import UtilityClass.Text.Blank

/-!
# Words of texts with blanks between them

A blank belongs to no word, so texts with a blank between them have the words of the one and then
those of the other.

## Key results

- `words_append_cons`: a blank parts the words in front of it from those behind it
- `words_intercalate`: texts that are joined by spaces keep their words
- `words_of_nonblank`: a text without blanks is its only word
-/

namespace UtilityClass.Text

variable {b : Char}

/-- The empty text has no words. -/
theorem words_nil : words [] = [] := rfl

/-- A blank parts the words in front of it from those behind it. -/
theorem words_append_cons (hb : isBlank b = true) (t u : Text) :
    words (t ++ b :: u) = words t ++ words u := by
  rw [words, List.splitOnP_append_cons t u hb, List.filter_append]
  rfl

/-- A blank at the front of a text is in no word. -/
theorem words_cons (hb : isBlank b = true) (t : Text) : words (b :: t) = words t := by
  rw [← List.nil_append (b :: t), words_append_cons hb, words_nil, List.nil_append]

/-- A blank at the end of a text is in no word. -/
theorem words_concat (hb : isBlank b = true) (t : Text) : words (t ++ [b]) = words t := by
  rw [words_append_cons hb, words_nil, List.append_nil]

/-- A text without blanks is its only word. -/
theorem words_of_nonblank {t : Text} (hne : t ≠ []) (h : ∀ c ∈ t, isBlank c = false) :
    words t = [t] := by
  rw [words, List.splitOnP_eq_singleton h]
  simp [hne]

/-- A text with a character that is no blank has a word. -/
theorem words_ne_nil {c : Char} {t : Text} (hmem : c ∈ t) (hc : isBlank c = false) :
    words t ≠ [] := by
  induction t with
  | nil => exact absurd hmem List.not_mem_nil
  | cons d rest ih =>
    by_cases hd : isBlank d = true
    · -- the character is not the first one, which is a blank
      rw [words_cons hd]
      rcases List.mem_cons.1 hmem with rfl | hrest
      · rw [hd] at hc
        exact nomatch hc
      · exact ih hrest
    -- the first part of the rest becomes longer by this character, and is empty no more
    · obtain ⟨first, more, hparts⟩ := List.exists_cons_of_ne_nil (List.splitOnP_ne_nil isBlank rest)
      rw [words, List.splitOnP_cons_eq_if_modifyHead, if_neg hd, hparts]
      simp

/-- Texts that are joined by spaces keep their words. -/
theorem words_intercalate (ts : List Text) : words ([' '].intercalate ts) = ts.flatMap words := by
  induction ts with
  | nil => rfl
  | cons t more ih =>
    -- the separator stands only between two texts, so the last one is a case of its own
    cases more with
    | nil => simp
    | cons u rest =>
      rw [List.intercalate_cons_cons, List.append_assoc, List.singleton_append,
        words_append_cons (by decide), ih]
      simp only [List.flatMap_cons]

/-- A word between blanks is a word of the whole text. -/
theorem mem_words_of_infix {b' : Char} {w t : Text} (hb : isBlank b = true)
    (hb' : isBlank b' = true) (hw : words w = [w]) (h : b :: (w ++ [b']) <:+: t) : w ∈ words t := by
  obtain ⟨front, rest, rfl⟩ := h
  -- the word with its blanks, seen from the front of the text
  have hparts : front ++ (b :: (w ++ [b'])) ++ rest = front ++ b :: (w ++ b' :: rest) := by simp
  rw [hparts, words_append_cons hb, words_append_cons hb', hw]
  simp

/-- A character of texts that are joined is one of the separator or of one of the texts. -/
theorem mem_intercalate {c : Char} {separator : Text} {ts : List Text}
    (h : c ∈ separator.intercalate ts) : c ∈ separator ∨ ∃ t ∈ ts, c ∈ t := by
  induction ts with
  | nil => exact absurd h List.not_mem_nil
  | cons t more ih =>
    cases more with
    | nil => exact .inr ⟨t, List.mem_cons_self, by simpa using h⟩
    | cons u rest =>
      rw [List.intercalate_cons_cons, List.mem_append, List.mem_append] at h
      rcases h with (ht | hseparator) | hmore
      · exact .inr ⟨t, List.mem_cons_self, ht⟩
      · exact .inl hseparator
      · exact (ih hmore).imp id fun ⟨v, hv, hc⟩ => ⟨v, List.mem_cons_of_mem t hv, hc⟩

/-- A text is a part of what it is joined into. -/
theorem infix_intercalate {separator t : Text} {ts : List Text} (h : t ∈ ts) :
    t <:+: separator.intercalate ts := by
  induction ts with
  | nil => exact absurd h List.not_mem_nil
  | cons u more ih =>
    cases more with
    | nil => simp_all
    | cons v rest =>
      rw [List.intercalate_cons_cons]
      rcases List.mem_cons.1 h with rfl | hmem
      · exact ⟨[], separator ++ separator.intercalate (v :: rest), by simp⟩
      · exact (ih hmem).trans (List.suffix_append _ _).isInfix

end UtilityClass.Text
