import UtilityClass.Proofs.Candidate.Flagged
import UtilityClass.Proofs.Candidate.Splitting
import UtilityClass.Proofs.Candidate.Token

/-!
# Configurations that read no token

A token is split before its prefix is taken off, so a required prefix with a separator in it,
outside of brackets, is never whole in a base.  A prefix that begins with a dash needs another dash
in front, for the first one is always taken for a flag; so the separator may not stand in the two
together either.  Neither is refused when a configuration is built.  Every other configuration reads
some token.

## Key results

- `Flagged.exists_of_ofBase?`: what every base with the required prefix holds
- `exists_ofToken_of_obligatory`: a token, if what every base has to hold leaves room for one
- `exists_candidate_iff`: which configurations read a token
-/

namespace UtilityClass

/-- What every base has to hold: the required prefix, and in front of one that begins with a dash
    another dash, for the first one is taken for a flag. -/
def Config.obligatory (config : Config) : Text :=
  if config.requiredPrefix.head? = some '-' then '-' :: config.requiredPrefix
  else config.requiredPrefix

namespace Segments

/-- In front of a place there may be more text without brackets. -/
theorem StandsAt.append_left {separator front t : Text} {depth i : Nat} (hopen : '[' ∉ front)
    (hclose : ']' ∉ front) (h : StandsAt separator depth t i) :
    StandsAt separator depth (front ++ t) (front.length + i) := by
  rwa [standsAt_length_add, foldl_deepen_of_not_mem hopen hclose]

/-- Behind a place there may be any text. -/
theorem StandsAt.append_right {separator t : Text} {depth i : Nat} (hne : separator ≠ [])
    (h : StandsAt separator depth t i) (rest : Text) : StandsAt separator depth (t ++ rest) i := by
  refine (standsAt_append rest ?_).2 h
  have hlength := h.2.length_le
  have hpos := List.length_pos_iff.2 hne
  rw [List.length_drop] at hlength
  omega

variable (config : Config)

/-- A separator holds no closing bracket, so it ends in front of one. -/
theorem standsAt_append_close_iff {t : Text} {i : Nat} :
    StandsAt config.separator 0 (t ++ [']']) i ↔ StandsAt config.separator 0 t i := by
  -- in front of the bracket, or behind it, where no separator stands in either text
  by_cases hi : i ≤ t.length
  · exact standsAt_append_cons_iff (bracket_not_mem_separator config).2 hi
  · -- nothing is left behind the bracket
    unfold StandsAt
    rw [List.drop_eq_nil_of_le (by simp; omega), List.drop_eq_nil_of_le (by omega)]
    simp [config.separator_ne_nil]

/-- A character that the separator does not begin with makes no new place for it. -/
theorem not_standsAt_cons {c : Char} {t : Text} (hopen : c ≠ '[') (hclose : c ≠ ']')
    (hhead : config.separator.head? ≠ some c) (h : ∀ i, ¬ StandsAt config.separator 0 t i)
    (i : Nat) :
    ¬ StandsAt config.separator 0 (c :: t) i := by
  -- at the front, by its first character, and further on as in the text behind it
  cases i with
  | zero =>
    rw [standsAt_zero]
    rintro ⟨-, hprefix⟩
    cases hs : config.separator with
    | nil => exact config.separator_ne_nil hs
    | cons d more =>
      rw [hs] at hprefix hhead
      exact hhead (congrArg some (List.cons_prefix_cons.1 hprefix).1)
  | succ i =>
    rw [standsAt_succ, deepen_of_ne hopen hclose]
    exact h i

/-- In the base of a token no separator stands outside of brackets. -/
theorem not_standsAt_base (raw : Text) (i : Nat) :
    ¬ StandsAt config.separator 0 (split config.separator raw).base i :=
  (separated_toList_iff.1 (separated_split config raw)).2 i

end Segments

namespace Flagged

/-- Every base with the required prefix holds it behind the marks of flags, and behind a dash more
    if it begins with one. -/
theorem exists_of_ofBase? {config : Config} {base : Text} {flagged : Flagged}
    (h : ofBase? config base = some flagged) :
    ∃ front rest : Text, '[' ∉ front ∧ ']' ∉ front ∧
      base = front ++ (config.obligatory ++ rest) := by
  obtain ⟨early, late, -, hearly, hbase⟩ := eq_of_ofBase? h
  -- marks of flags are no brackets
  have hfront : ∀ c, c ≠ '!' → c ≠ '-' → ∀ important negative,
      c ∉ flagText '!' important ++ flagText '-' negative := by
    intro c hmark hdash important negative hmem
    rcases List.mem_append.1 hmem with hmem | hmem
    · exact not_mem_flagText hmark important hmem
    · exact not_mem_flagText hdash negative hmem
  -- whether the prefix begins with a dash decides where the dash in front of it is counted
  unfold Config.obligatory
  split
  · next hdash =>
    refine ⟨flagText '!' flagged.important, flagText '-' late ++ flagged.text,
      not_mem_flagText (by decide) _, not_mem_flagText (by decide) _, ?_⟩
    rw [hbase, hearly hdash]
    simp [flagText]
  · refine ⟨flagText '!' flagged.important ++ flagText '-' early,
      flagText '-' late ++ flagged.text, hfront _ (by decide) (by decide) _ _,
      hfront _ (by decide) (by decide) _ _, ?_⟩
    rw [hbase]
    simp only [List.append_assoc]

end Flagged

namespace Candidate

variable {config : Config}

/-- A closing bracket behind the flags and the prefix makes a token, if no separator stands outside
    of brackets in front of it. -/
theorem exists_ofToken_of_uncut (important negative : Bool)
    (hmark : important = false →
      (flagText '-' negative ++ (config.requiredPrefix ++ [']'])).head? ≠ some '!')
    (hsign : negative = false → (config.requiredPrefix ++ [']']).head? ≠ some '-')
    (huncut : ∀ i, ¬ Segments.StandsAt config.separator 0
      (flagText '!' important ++ (flagText '-' negative ++ config.requiredPrefix)) i) :
    ∃ raw c, ofToken config raw = .ok c := by
  obtain ⟨base, hbase⟩ : ∃ base, base = flagText '!' important ++ (flagText '-' negative ++
    (config.requiredPrefix ++ [']'])) := ⟨_, rfl⟩
  -- the closing bracket changes nothing in where separators stand, so the base is not cut
  have hsplit : Segments.split config.separator base = ⟨[], base⟩ := by
    apply Segments.split_of_uncut config
    intro i
    rw [hbase, ← List.append_assoc (flagText '-' negative), ← List.append_assoc,
      Segments.standsAt_append_close_iff]
    exact huncut i
  have hflagged : Flagged.ofBase? config (Segments.split config.separator base).base =
      some ⟨important, negative, [']']⟩ := by
    rw [hsplit, hbase]
    exact Flagged.ofBase?_flagText config hmark hsign (by decide)
  have htext : (Modifier.split [']']).1 ≠ [] := by decide
  exact ⟨base, _, ofToken_eq_ok_iff.2 ⟨by simp [hbase], _, hflagged, htext, rfl⟩⟩

/-- If no separator stands outside of brackets in what every base has to hold, there is a token. -/
theorem exists_ofToken_of_obligatory
    (h : ∀ i, ¬ Segments.StandsAt config.separator 0 config.obligatory i) :
    ∃ raw c, ofToken config raw = .ok c := by
  -- the bracket behind the prefix begins it only if it is empty, and is neither of the two marks
  have hclose : ∀ c, config.requiredPrefix.head? ≠ some c → c ≠ ']' →
      (config.requiredPrefix ++ [']']).head? ≠ some c := by
    intro c hc hbracket
    exact head?_append_ne hc (by simpa using Ne.symm hbracket)
  unfold Config.obligatory at h
  split at h
  · -- the dash that is taken for a flag stands in front
    exact exists_ofToken_of_uncut false true
      (fun _ => by simp [flagText]) (absurd · Bool.false_ne_true.symm) h
  · next hdash =>
    by_cases hmark : config.requiredPrefix.head? = some '!'
    · -- one of the two marks stands in front, and the separator does not begin with both
      by_cases hhead : config.separator.head? = some '!'
      · refine exists_ofToken_of_uncut false true
          (fun _ => by simp [flagText]) (absurd · Bool.false_ne_true.symm) ?_
        exact Segments.not_standsAt_cons config (by decide) (by decide) (by rw [hhead]; decide) h
      · refine exists_ofToken_of_uncut true false
          (absurd · Bool.false_ne_true.symm) (fun _ => hclose '-' hdash (by decide)) ?_
        exact Segments.not_standsAt_cons config (by decide) (by decide) hhead h
    · exact exists_ofToken_of_uncut false false
        (fun _ => hclose '!' hmark (by decide)) (fun _ => hclose '-' hdash (by decide)) h

/-- If a separator stands outside of brackets in what every base has to hold, the prefix is missing
    in every base of a token. -/
theorem ofBase?_eq_none_of_standsAt {i : Nat}
    (h : Segments.StandsAt config.separator 0 config.obligatory i) (raw : Text) :
    Flagged.ofBase? config (Segments.split config.separator raw).base = none := by
  cases hbase : Flagged.ofBase? config (Segments.split config.separator raw).base with
  | none => rfl
  | some flagged =>
    -- the separator in the base would have been cut at
    obtain ⟨front, rest, hopen, hclose, heq⟩ := Flagged.exists_of_ofBase? hbase
    have hstands := (h.append_right config.separator_ne_nil rest).append_left hopen hclose
    rw [← heq] at hstands
    exact absurd hstands (Segments.not_standsAt_base config raw _)

/-- A configuration reads a token exactly if no separator stands outside of brackets in its required
    prefix, or in that prefix and a dash in front of it if it begins with a dash.  A configuration
    that reads none finds the prefix missing in every text. -/
theorem exists_candidate_iff (config : Config) :
    ((∃ raw c, ofToken config raw = .ok c) ↔
      ∀ i, ¬ Segments.StandsAt config.separator 0 config.obligatory i) ∧
    ((∃ i, Segments.StandsAt config.separator 0 config.obligatory i) →
      ∀ raw, raw ≠ [] → ofToken config raw = .error (.missingPrefix config.classPrefix)) := by
  refine ⟨⟨?_, exists_ofToken_of_obligatory⟩, ?_⟩
  · intro h i hi
    obtain ⟨raw, c, htoken⟩ := h
    obtain ⟨-, flagged, hbase, -, -⟩ := ofToken_eq_ok_iff.1 htoken
    rw [ofBase?_eq_none_of_standsAt hi] at hbase
    exact nomatch hbase
  · intro h raw hraw
    obtain ⟨i, hi⟩ := h
    unfold ofToken
    rw [if_neg hraw]
    dsimp only
    rw [ofBase?_eq_none_of_standsAt hi]

/-- A colon may separate the variants and be the required prefix too: the settings are taken, and no
    text is a token.  The same goes for two dashes and a prefix that begins with one. -/
theorem exists_candidate_iff_colon :
    (∃ config, Config.ofSettings ⟨":", ":", true⟩ = .ok config ∧
      ¬ (∃ raw c, ofToken config raw = .ok c) ∧
      ofToken config "a" = .error (.missingPrefix ":")) ∧
    ∃ config, Config.ofSettings ⟨"--", "-a", true⟩ = .ok config ∧
      ¬ ∃ raw c, ofToken config raw = .ok c := by
  let colon : Config := ⟨":", ":", true, by decide, by decide, by decide⟩
  let dash : Config := ⟨"--", "-a", true, by decide, by decide, by decide⟩
  have hcolon : Segments.StandsAt colon.separator 0 colon.obligatory 0 := by decide
  have hdash : Segments.StandsAt dash.separator 0 dash.obligatory 0 := by decide
  refine
    ⟨⟨colon, rfl, ?_, (exists_candidate_iff colon).2 ⟨0, hcolon⟩ "a" (by decide)⟩, dash, rfl, ?_⟩
  · exact fun h => (exists_candidate_iff colon).1.1 h 0 hcolon
  · exact fun h => (exists_candidate_iff dash).1.1 h 0 hdash

end Candidate

end UtilityClass
