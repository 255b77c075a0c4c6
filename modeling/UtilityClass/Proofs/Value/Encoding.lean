import UtilityClass.Proofs.Value.CanonicalTwice

/-!
# Values written in class names

A class name holds no spaces, so a text that is to be a value is written with an underscore for each
space, and with a backslash in front of each of its own underscores.  Backslashes stay as they are,
in runs of any length, so reading is the inverse of writing except at a backslash in front of a
space: the underscore behind it is taken for an escaped one.

## Key results

- `spaced_encoded_iff`: which texts are read back from what is written for them
- `not_lead_encoded` / `dashes_prefix_encoded_iff`: writing a text does not bring about an address,
  or two dashes at the front
- `canonical_encoded_iff`: which texts come out again as canonical values
-/

namespace UtilityClass.Value

/-- A character as it is written in a class name. -/
def encode (c : Char) : Text :=
  if c = '_' then ['\\', '_'] else if c = ' ' then ['_'] else [c]

/-- A text as it is written in a class name. -/
def encoded (s : Text) : Text := s.flatMap encode

/-- A text is written character by character. -/
theorem encoded_cons (c : Char) (s : Text) : encoded (c :: s) = encode c ++ encoded s :=
  List.flatMap_cons

/-! ## Reading what was written -/

/-- Each character is read back from what is written for it alone. -/
theorem spaced_encode (c : Char) : spaced (encode c) = [c] := by
  unfold encode
  split
  · next h => subst h; rfl
  · split
    · next h => subst h; rfl
    · next h _ => exact spaced_eq_self (by simp [Ne.symm h])

/-- Only a backslash is written with a backslash at the end. -/
theorem getLast?_encode {c : Char} (h : c ≠ '\\') : (encode c).getLast? ≠ some '\\' := by
  unfold encode
  split
  · decide
  · split
    · decide
    · simp [h]

/-- What is written begins with an underscore exactly if the text begins with a space. -/
theorem head?_encoded_iff {s : Text} : (encoded s).head? = some '_' ↔ s.head? = some ' ' := by
  cases s with
  | nil => decide
  | cons c rest =>
    rw [encoded_cons, encode]
    split
    · next h => simp [h]
    · split
      · next h => simp [h]
      · next hunderscore hspace => simp [hunderscore, hspace]

/-- A backslash in front of a space is lost, and what was written for the space is read as an
    underscore. -/
theorem spaced_encoded_escape (s : Text) :
    spaced (encoded ('\\' :: ' ' :: s)) = '_' :: spaced (encoded s) := by
  rw [encoded_cons, encoded_cons]
  rfl

/-- Every other character is read back on its own. -/
theorem spaced_encoded_cons {c : Char} {s : Text} (h : ¬ ['\\', ' '] <+: c :: s) :
    spaced (encoded (c :: s)) = c :: spaced (encoded s) := by
  rw [encoded_cons, spaced_append, spaced_encode, List.singleton_append]
  -- a backslash could take an underscore behind it, and no underscore is written for the rest
  by_cases hc : c = '\\'
  · right
    rw [Ne, head?_encoded_iff]
    intro hspace
    obtain ⟨rest, rfl⟩ := List.head?_eq_some_iff.1 hspace
    exact h ⟨rest, by rw [hc]; rfl⟩
  · exact .inl (getLast?_encode hc)

/-- A text is read back from what is written for it exactly if no backslash stands in front of a
    space in it. -/
theorem spaced_encoded_iff {s : Text} : spaced (encoded s) = s ↔ ¬ ['\\', ' '] <:+: s := by
  induction s with
  | nil => decide
  | cons c rest ih =>
    rw [List.infix_cons_iff]
    -- at the front the escape is read wrongly, which no rest can make good
    by_cases hescape : ['\\', ' '] <+: c :: rest
    · obtain ⟨more, hmore⟩ := hescape
      rw [← hmore]
      show spaced (encoded ('\\' :: ' ' :: more)) = '\\' :: ' ' :: more ↔ _
      rw [spaced_encoded_escape]
      simp
    · rw [spaced_encoded_cons hescape]
      simp [hescape, ih]

/-! ## Words of what is read -/

variable {s t w : Text}

/-- A word without underscores that does not end in a backslash is read as it is, whatever stands
    around it. -/
theorem spaced_append_word (hne : w ≠ []) (hunderscore : '_' ∉ w) (hescape : w.getLast? ≠ some '\\')
    (left right : Text) : spaced (left ++ (w ++ right)) = spaced left ++ (w ++ spaced right) := by
  have hfront : (w ++ right).head? ≠ some '_' := by
    rw [List.head?_append_of_ne_nil _ hne]
    exact fun hhead => hunderscore (List.mem_of_mem_head? hhead)
  rw [spaced_append (.inr hfront), spaced_append (.inl hescape), spaced_eq_self hunderscore]

/-- Such a word, where it stands in a text, stands in the text as it is read. -/
theorem infix_spaced (hne : w ≠ []) (hunderscore : '_' ∉ w) (hescape : w.getLast? ≠ some '\\')
    (h : w <:+: t) : w <:+: spaced t := by
  obtain ⟨left, right, rfl⟩ := h
  rw [List.append_assoc, spaced_append_word hne hunderscore hescape]
  exact ⟨spaced left, spaced right, List.append_assoc _ _ _⟩

/-- Such a word at the front of a text stands at the front of the text as it is read. -/
theorem prefix_spaced (hne : w ≠ []) (hunderscore : '_' ∉ w) (hescape : w.getLast? ≠ some '\\')
    (h : w <+: t) : w <+: spaced t := by
  obtain ⟨right, rfl⟩ := h
  have hread := spaced_append_word hne hunderscore hescape [] right
  exact ⟨spaced right, hread.symm⟩

/-- What is written for a text that is read back opens an address only if the text does. -/
theorem not_lead_encoded (hread : spaced (encoded s) = s) (h : ¬ addressLead <:+: s) :
    ¬ addressLead <:+: encoded s := by
  intro hin
  have hspaced : addressLead <:+: spaced (encoded s) :=
    infix_spaced (by decide) (by decide) (by decide) hin
  rw [hread] at hspaced
  exact h hspaced

/-- It begins with two dashes exactly if the text does. -/
theorem dashes_prefix_encoded_iff (hread : spaced (encoded s) = s) :
    ['-', '-'] <+: encoded s ↔ ['-', '-'] <+: s := by
  constructor
  · intro h
    rw [← hread]
    exact prefix_spaced (by decide) (by decide) (by decide) h
  · intro h
    rw [← hread] at h
    exact prefix_of_prefix_spaced (by decide) (by decide) h

/-! ## Canonical values -/

/-- Where no backslash stands in front of a space, what is written for a text without addresses and
    two dashes at the front has the trimmed text with spaced operators as its canonical form. -/
theorem canonical_encoded (hescape : ¬ ['\\', ' '] <:+: s) (hlead : ¬ addressLead <:+: s)
    (hdashes : ¬ ['-', '-'] <+: s) :
    canonical (encoded s) = .ok (spaceOperators (Text.strip s)) := by
  have hread := spaced_encoded_iff.2 hescape
  have hdashes' := mt (dashes_prefix_encoded_iff hread).1 hdashes
  rw [canonical_of_not_lead hdashes' (not_lead_encoded hread hlead), hread]

/-- A text is read back from what is written for it exactly if no backslash stands in front of a
    space in it.  If it then holds no address and no call of a math function either, it comes out as
    the canonical form of what is written for it, exactly if it has no blanks at its ends and does
    not begin with two dashes. -/
theorem canonical_encoded_iff (s : Text) :
    (spaced (encoded s) = s ↔ ¬ ['\\', ' '] <:+: s) ∧
      (¬ ['\\', ' '] <:+: s → ¬ addressLead <:+: s → (∀ f ∈ mathFunctions, ¬ f ++ ['('] <:+: s) →
        (canonical (encoded s) = .ok s ↔
          s.head?.any Text.isBlank = false ∧ s.getLast?.any Text.isBlank = false ∧
            ¬ ['-', '-'] <+: s)) := by
  refine ⟨spaced_encoded_iff, ?_⟩
  intro hescape hlead hmath
  by_cases hdashes : ['-', '-'] <+: s
  · -- what comes out is wrapped in a call, and does not begin with a dash
    have hwritten := (dashes_prefix_encoded_iff (spaced_encoded_iff.2 hescape)).2 hdashes
    rw [canonical_of_dashes hwritten, Except.ok.injEq]
    refine iff_of_false ?_ fun h => h.2.2 hdashes
    intro hwrapped
    rw [← hwrapped] at hdashes
    exact absurd (List.cons_prefix_cons.1 hdashes).1 (by decide)
  · have hquiet : spaceOperators (Text.strip s) = Text.strip s := by
      -- trimming brings about no call
      refine if_neg fun hcalls => ?_
      obtain ⟨f, hf, hin⟩ := callsMath_iff.1 hcalls
      exact hmath f hf (hin.trans (Text.strip_infix s))
    rw [canonical_encoded hescape hlead hdashes, hquiet, Except.ok.injEq]
    constructor
    -- trimming leaves no blanks at the ends
    · intro htrimmed
      rw [← htrimmed]
      refine ⟨Text.head?_strip s, Text.getLast?_strip s, ?_⟩
      rwa [htrimmed]
    · intro h
      exact Text.strip_eq_self h.1 h.2.1

/-- Backslashes in front of an underscore, in a run in front of what is no space, and at the end. -/
theorem canonical_encoded_iff_backslashes :
    ∃ s : Text, s = "\\_a_ \\\\b c\\" ∧ encoded s = "\\\\_a\\__\\\\b_c\\".toList ∧
      ¬ ['\\', ' '] <:+: s ∧ ¬ addressLead <:+: s ∧
      (∀ f ∈ mathFunctions, ¬ f ++ ['('] <:+: s) ∧ ¬ ['-', '-'] <+: s ∧
      spaced (encoded s) = s ∧ canonical (encoded s) = .ok s := by
  let s : Text := "\\_a_ \\\\b c\\"
  have hescape : ¬ ['\\', ' '] <:+: s := by decide +kernel
  have hlead : ¬ addressLead <:+: s := by decide +kernel
  have hmath : ∀ f ∈ mathFunctions, ¬ f ++ ['('] <:+: s := by decide +kernel
  have hhead : s.head?.any Text.isBlank = false := by decide +kernel
  have hlast : s.getLast?.any Text.isBlank = false := by decide +kernel
  have hdashes : ¬ ['-', '-'] <+: s := by decide +kernel
  have hwritten : encoded s = "\\\\_a\\__\\\\b_c\\".toList := by decide +kernel
  obtain ⟨hread, hcanonical⟩ := canonical_encoded_iff s
  have hcan : canonical (encoded s) = .ok s :=
    (hcanonical hescape hlead hmath).2 ⟨hhead, hlast, hdashes⟩
  exact ⟨s, rfl, hwritten, hescape, hlead, hmath, hdashes, hread.2 hescape, hcan⟩

end UtilityClass.Value
