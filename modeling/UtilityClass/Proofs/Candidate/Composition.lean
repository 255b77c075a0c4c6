import UtilityClass.Proofs.Candidate.Body
import UtilityClass.Proofs.Candidate.Flagged
import UtilityClass.Proofs.Candidate.Modifier
import UtilityClass.Proofs.Candidate.Segments
import UtilityClass.Proofs.Candidate.Token

/-!
# Composed tokens

A token is composed of closed variant segments, flags, the required prefix, a body and a modifier.
`Composition.token` writes the parts one behind the other; reading the token gives them back.

## Key results

- `split_text`: the modifier is read back from the text behind the flags
- `ofToken_token`: reading a composed token gives the candidate with exactly the parts written
-/

namespace UtilityClass

/-- The parts that a token is composed of. -/
structure Composition where
  variants : List Text
  important : Bool
  negative : Bool
  body : Text
  modifier : Option Part
  deriving DecidableEq, Repr

namespace Composition

/-- The body with its modifier behind a slash. -/
def text (t : Composition) : Text :=
  match t.modifier with
  | none => t.body
  | some part => t.body ++ '/' :: part.render

/-- The flags, the required prefix, and the body with its modifier. -/
def base (config : Config) (t : Composition) : Text :=
  flagText '!' t.important ++ flagText '-' t.negative ++ config.requiredPrefix ++ t.text

/-- The variant segments, each with a separator behind it, and the base. -/
def token (config : Config) (t : Composition) : Text :=
  t.variants.flatMap (· ++ config.separator) ++ t.base config

/-- Parts that can be told apart once they are written: no part can be taken for the start of the
    one in front of it. -/
structure WellFormed (config : Config) (t : Composition) : Prop where
  variants_closed : ∀ v ∈ t.variants, Segments.Closed config.separator v
  body_ne_nil : t.body ≠ []
  body_not_marked : t.body.head? ≠ some '!' ∧ t.body.head? ≠ some '-'
  modifier_wellFormed : ∀ part, t.modifier = some part → Modifier.WellFormed part
  body_unmodified : t.modifier = none → (Modifier.split t.body).2 = []
  base_uncut : ∀ i, ¬ Segments.StandsAt config.separator 0 (t.base config) i

variable {config : Config} {t : Composition}

/-- The text behind the flags begins as its body does. -/
theorem head?_text (hne : t.body ≠ []) : t.text.head? = t.body.head? := by
  unfold text
  -- the slash of a modifier comes behind the body, which is not empty
  cases t.modifier with
  | none => rfl
  | some part =>
    cases hbody : t.body with
    | nil => exact absurd hbody hne
    | cons c rest => rfl

/-- The modifier is read back from the text behind the flags. -/
theorem split_text (h : t.WellFormed config) :
    Modifier.split t.text = (t.body, t.modifier.toList) := by
  unfold text
  cases hmod : t.modifier with
  | none =>
    have hparts := h.body_unmodified hmod
    have hfront := Modifier.split_fst_of_snd_eq_nil hparts
    exact Prod.ext hfront hparts
  | some part => exact Modifier.split_append_render (h.modifier_wellFormed part hmod) t.body

/-- Reading a composed token gives the candidate with exactly the variants, the flags, the modifier
    and the body that were written.  Every body text spells a body. -/
theorem ofToken_token (config : Config) (t : Composition)
    (hpre : config.requiredPrefix.head? ≠ some '!' ∧ config.requiredPrefix.head? ≠ some '-')
    (h : t.WellFormed config) :
    (∃ body, Body.Spelled t.body body) ∧
      ∀ body, Body.Spelled t.body body →
        Candidate.ofToken config (t.token config) = .ok {
          raw := t.token config
          classPrefix := config.classPrefix
          important := t.important
          negative := t.negative
          variants := t.variants.map Segments.variantOf
          modifiers := t.modifier.toList
          body := body } := by
  refine ⟨⟨_, Body.spelled_ofText t.body⟩, ?_⟩
  intro body hbody
  have hsplit : Segments.split config.separator (t.token config) = ⟨t.variants, t.base config⟩ :=
    Segments.split_join config (s := ⟨t.variants, t.base config⟩) h.variants_closed h.base_uncut
  have hflags :
      Flagged.ofBase? config (t.base config) = some ⟨t.important, t.negative, t.text⟩ := by
    have hhead := head?_text h.body_ne_nil
    apply Flagged.ofBase?_write config hpre.1 hpre.2
    · rw [hhead]; exact h.body_not_marked.1
    · rw [hhead]; exact h.body_not_marked.2
  have htoken : t.token config ≠ [] := by
    -- the body is the last part that must be there
    intro hnil
    have hbase : t.base config = [] := (List.append_eq_nil_iff.1 hnil).2
    have htext : t.text = [] := (List.append_eq_nil_iff.1 hbase).2
    have hhead := head?_text h.body_ne_nil
    rw [htext] at hhead
    exact h.body_ne_nil (List.head?_eq_none_iff.1 hhead.symm)
  have hvariants : t.variants.map Part.ofSegment = t.variants.map Segments.variantOf :=
    List.map_congr_left fun v _ => Segments.ofSegment_eq_variantOf v
  -- the stages of reading, each on what was written for it
  rw [Candidate.ofToken_eq_ok_iff, hsplit]
  refine ⟨htoken, ⟨t.important, t.negative, t.text⟩, hflags, ?_, ?_⟩
  · rw [split_text h]
    exact h.body_ne_nil
  · rw [split_text h, hvariants, Body.ofText_of_spelled hbody]

/-- A token with all the parts: two variants, both flags, a required prefix, a tagged value with a
    slash in it, and a bracketed modifier with another. -/
theorem ofToken_token_stacked :
    ∃ config : Config, ∃ t : Composition,
      t.WellFormed config ∧
      t.token config = "md:[&:hover]:!-tw-bg-[length:a/b]/[0.5/1]".toList ∧
      Candidate.ofToken config (t.token config) = .ok ⟨t.token config, "tw-", true, true,
        [.plain "md", .bracketed "&:hover"], [.bracketed "0.5/1"],
        .custom "bg" "a/b" "length"⟩ := by
  let config : Config := ⟨":", "tw-", true, by decide, by decide, by decide⟩
  let t : Composition := ⟨["md", "[&:hover]"], true, true, "bg-[length:a/b]",
    some (.bracketed "0.5/1")⟩
  have h : t.WellFormed config := {
    variants_closed := by decide
    body_ne_nil := by decide
    body_not_marked := by decide
    modifier_wellFormed := by
      intro part hpart
      obtain rfl : .bracketed "0.5/1" = part := Option.some.inj hpart
      decide
    body_unmodified := by intro hnone; exact nomatch hnone
    base_uncut := (Segments.cut?_eq_none_iff config).1 (by decide) }
  have hbody : Body.Spelled t.body (.custom "bg" "a/b" "length") :=
    Body.ofText_eq_iff.1 (by decide)
  have hread := (ofToken_token config t ⟨by decide, by decide⟩ h).2 _ hbody
  exact ⟨config, t, h, by decide, hread⟩

end Composition

end UtilityClass
