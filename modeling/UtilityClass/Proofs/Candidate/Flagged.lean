import UtilityClass.Candidate.Flagged
import UtilityClass.Proofs.Text.Cut

/-!
# Written flags

A base is its flags, the required prefix and the text behind them, written one behind the
other.  They are read back from there, if neither the prefix nor the text behind it can be taken for
a flag.

## Key results

- `takeMark_eq_iff`: a mark is taken exactly if it stands in front
- `ofBase?_eq_some_iff`: which bases have which flags and text behind them
- `eq_of_ofBase?`: a base is its flags, the required prefix and the text behind them
- `exists_ofBase?_replace`: the flags are the same with another text behind them
- `ofBase?_write`: flags are read back if neither the prefix nor the text can be taken for one
-/

namespace UtilityClass

/-! ## Marks -/

/-- A flag as it is written: the mark if it is set. -/
def flagText (mark : Char) (set : Bool) : Text := if set then [mark] else []

/-- A flag is written with its mark alone. -/
theorem not_mem_flagText {mark c : Char} (h : c ≠ mark) (set : Bool) : c ∉ flagText mark set := by
  cases set <;> simp [flagText, h]

/-- A text is a mark, if it was taken, and what is left.  Where no mark was taken, what is left does
    not begin with it. -/
theorem takeMark_eq_iff {mark : Char} {set : Bool} {t rest : Text} :
    takeMark mark t = (set, rest) ↔
      t = flagText mark set ++ rest ∧ (set = false → rest.head? ≠ some mark) := by
  constructor
  · intro h
    -- an empty text has no mark to take, and is left as it is
    cases t with
    | nil =>
      obtain ⟨rfl, rfl⟩ := Prod.mk.inj h
      exact ⟨rfl, by simp⟩
    | cons c more =>
      rw [takeMark] at h
      split at h
      · next hc =>
        obtain ⟨rfl, rfl⟩ := Prod.mk.inj h
        exact ⟨by rw [hc]; rfl, by simp⟩
      · next hc =>
        obtain ⟨rfl, rfl⟩ := Prod.mk.inj h
        exact ⟨rfl, by simpa using hc⟩
  · intro h
    obtain ⟨rfl, hrest⟩ := h
    cases set with
    | true => simp [flagText, takeMark]
    | false =>
      cases rest with
      | nil => rfl
      | cons c more =>
        have hc : c ≠ mark := by simpa using hrest rfl
        exact if_neg hc

/-! ## First characters -/

/-- The first character of two texts is that of the first, or else that of the second. -/
theorem head?_append_ne {c : Char} {t u : Text} (ht : t.head? ≠ some c)
    (hu : u.head? ≠ some c) : (t ++ u).head? ≠ some c := by
  cases t with
  | nil => exact hu
  | cons d rest => exact ht

/-- In front of two texts that begin alike the same text makes no difference to that. -/
theorem head?_append_congr {t u : Text} (front : Text) (h : t.head? = u.head?) :
    (front ++ t).head? = (front ++ u).head? := by
  rw [List.head?_append, List.head?_append, h]

/-! ## Bases -/

namespace Flagged

variable {config : Config} {base : Text} {flagged : Flagged}

/-- A base is its flags, the required prefix and the text behind them, with a dash on either side of
    the prefix.  Behind a mark that is missing nothing begins with it. -/
theorem ofBase?_eq_some_iff :
    ofBase? config base = some flagged ↔
      ∃ early late : Bool, (early || late) = flagged.negative ∧
        base = flagText '!' flagged.important ++ (flagText '-' early ++ (config.requiredPrefix ++
          (flagText '-' late ++ flagged.text))) ∧
        (flagged.important = false → (flagText '-' early ++ (config.requiredPrefix ++
          (flagText '-' late ++ flagged.text))).head? ≠ some '!') ∧
        (early = false →
          (config.requiredPrefix ++ (flagText '-' late ++ flagged.text)).head? ≠ some '-') ∧
        (late = false → flagged.text.head? ≠ some '-') := by
  constructor
  -- each stage of the reading is named by what it takes and what it leaves
  · intro h
    obtain ⟨⟨important, unmarked⟩, hmark⟩ : ∃ found, takeMark '!' base = found := ⟨_, rfl⟩
    obtain ⟨⟨early, unsigned⟩, hearly⟩ : ∃ found, takeMark '-' unmarked = found := ⟨_, rfl⟩
    simp only [ofBase?, hmark, hearly] at h
    obtain ⟨named, hnamed, rfl⟩ := Option.map_eq_some_iff.1 h
    obtain ⟨⟨late, text⟩, hlate⟩ : ∃ found, takeMark '-' named = found := ⟨_, rfl⟩
    simp only [hlate]
    -- each stage leaves to the next what stands behind its own part
    obtain ⟨rfl, hunmarked⟩ := takeMark_eq_iff.1 hmark
    obtain ⟨rfl, hunsigned⟩ := takeMark_eq_iff.1 hearly
    obtain rfl := (Text.isPrefixOf?_eq_some_iff _ _ _).1 hnamed
    obtain ⟨rfl, htext⟩ := takeMark_eq_iff.1 hlate
    exact ⟨early, late, rfl, rfl, hunmarked, hunsigned, htext⟩
  · intro h
    -- the stages are run on what was written, each with the check that its own part passes
    obtain ⟨early, late, hnegative, hbase, hmark, hearly, hlate⟩ := h
    have hnamed : config.requiredPrefix.isPrefixOf?
        (config.requiredPrefix ++ (flagText '-' late ++ flagged.text)) =
        some (flagText '-' late ++ flagged.text) := (Text.isPrefixOf?_eq_some_iff _ _ _).2 rfl
    unfold ofBase?
    simp only [takeMark_eq_iff.2 ⟨hbase, hmark⟩, takeMark_eq_iff.2 ⟨rfl, hearly⟩, hnamed,
      Option.map_some, takeMark_eq_iff.2 ⟨rfl, hlate⟩, hnegative]

/-- A base is its flags, the required prefix and the text behind them.  It may have a dash on
    either side of the prefix, and has one in front of a prefix that begins with a dash itself. -/
theorem eq_of_ofBase? (h : ofBase? config base = some flagged) :
    ∃ early late : Bool, (early || late) = flagged.negative ∧
      (config.requiredPrefix.head? = some '-' → early = true) ∧
      base = flagText '!' flagged.important ++ flagText '-' early ++ config.requiredPrefix ++
        flagText '-' late ++ flagged.text := by
  obtain ⟨early, late, hnegative, hbase, -, hearly, -⟩ := ofBase?_eq_some_iff.1 h
  refine ⟨early, late, hnegative, ?_, by simpa only [List.append_assoc] using hbase⟩
  intro hdash
  -- a dash in front of the prefix was not taken, so the prefix does not begin with one
  cases early with
  | true => rfl
  | false =>
    apply absurd _ (hearly rfl)
    rw [List.head?_append, hdash, Option.some_or]

/-- Where the text behind the flags and the required prefix is replaced by one that begins with the
    same character, the same flags are taken. -/
theorem exists_ofBase?_replace (h : ofBase? config base = some flagged) :
    ∃ front, base = front ++ flagged.text ∧ ∀ text, text.head? = flagged.text.head? →
      ofBase? config (front ++ text) = some { flagged with text := text } := by
  obtain ⟨early, late, hnegative, hbase, hmark, hearly, hlate⟩ := ofBase?_eq_some_iff.1 h
  refine ⟨flagText '!' flagged.important ++ (flagText '-' early ++ (config.requiredPrefix ++
    flagText '-' late)), by simpa only [List.append_assoc] using hbase, ?_⟩
  intro text hhead
  -- from the text outwards, each stage finds the first character that it found before
  have hnamed := head?_append_congr (flagText '-' late) hhead
  have hunsigned := head?_append_congr config.requiredPrefix hnamed
  have hunmarked := head?_append_congr (flagText '-' early) hunsigned
  rw [← hunmarked] at hmark
  rw [← hunsigned] at hearly
  rw [← hhead] at hlate
  exact ofBase?_eq_some_iff.2
    ⟨early, late, hnegative, by simp only [List.append_assoc], hmark, hearly, hlate⟩

/-- Flags are read back from where they were written, unless the text behind one that is not set
    begins with its mark. -/
theorem ofBase?_flagText (config : Config) {important negative : Bool} {text : Text}
    (hmark : important = false →
      (flagText '-' negative ++ (config.requiredPrefix ++ text)).head? ≠ some '!')
    (hsign : negative = false → (config.requiredPrefix ++ text).head? ≠ some '-')
    (hdash : text.head? ≠ some '-') :
    ofBase? config (flagText '!' important ++ (flagText '-' negative ++
      (config.requiredPrefix ++ text))) = some ⟨important, negative, text⟩ :=
  ofBase?_eq_some_iff.2
    ⟨negative, false, Bool.or_false negative, rfl, hmark, hsign, fun _ => hdash⟩

/-- Flags are read back from where they were written. -/
theorem ofBase?_write (config : Config) {important negative : Bool} {text : Text}
    (hpreMark : config.requiredPrefix.head? ≠ some '!')
    (hpreDash : config.requiredPrefix.head? ≠ some '-')
    (hmark : text.head? ≠ some '!') (hdash : text.head? ≠ some '-') :
    ofBase? config (flagText '!' important ++ flagText '-' negative ++ config.requiredPrefix ++
      text) = some ⟨important, negative, text⟩ := by
  rw [List.append_assoc, List.append_assoc]
  apply ofBase?_flagText config
  · intro _
    apply head?_append_ne
    · cases negative <;> decide
    · exact head?_append_ne hpreMark hmark
  · intro _
    exact head?_append_ne hpreDash hdash
  · exact hdash

/-- What is left behind the flags begins with a dash only if a dash was taken off in front of it. -/
theorem negative_of_head?_text (h : ofBase? config base = some flagged)
    (hdash : flagged.text.head? = some '-') : flagged.negative = true := by
  obtain ⟨early, late, hnegative, -, -, -, hlate⟩ := ofBase?_eq_some_iff.1 h
  cases late with
  | true => rw [← hnegative, Bool.or_true]
  | false => exact absurd hdash (hlate rfl)

end Flagged

end UtilityClass
