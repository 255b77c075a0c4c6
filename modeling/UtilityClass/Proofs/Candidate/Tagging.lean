import UtilityClass.Proofs.Candidate.Body
import UtilityClass.Proofs.Candidate.Flagged
import UtilityClass.Proofs.Candidate.Modifier
import UtilityClass.Proofs.Candidate.Splitting
import UtilityClass.Proofs.Candidate.Token
import UtilityClass.Proofs.Candidate.WellFormed
import UtilityClass.Proofs.Gate
import UtilityClass.Report.Results
import UtilityClass.Value.Color

/-!
# Tags written into tokens

The type that is inferred for an untagged value can be written into the token, as a tag and a colon
behind the leftmost `-[` of its body.  What is written stands inside of a bracket, so the token is
split as before; it stands behind the first characters of the text that follows the flags, so the
same flags are taken; and no slash in front of it begins a modifier, for a bracket stands between.
The body spells the same name and the same value, now with the tag.

## Key results

- `Segments.not_standsAt_insert`: text inside of a bracket makes no new place for the separator
- `Modifier.split_append_dash_bracket`: no modifier begins in front of a bracket with a dash
- `Body.spellsDeclaration_of_tagged`: a tag does not turn a body into a declaration
- `ofToken_insert`: text inside of the bracket goes into the body and nowhere else
- `ofToken_withTag`: the token with the tag spells the same candidate with the tag
- `parse_withTag`: it is accepted as that candidate, and the reports say that the tag fits
-/

namespace UtilityClass

/-! ## Splitting -/

namespace Segments

variable (config : Config)

/-- Text without brackets behind an opening bracket makes no new place for the separator. -/
theorem not_standsAt_insert {front inserted rest : Text} {depth : Nat} (hopen : '[' ∉ inserted)
    (hclose : ']' ∉ inserted)
    (h : ∀ i, ¬ StandsAt config.separator depth (front ++ '[' :: rest) i) (i : Nat) :
    ¬ StandsAt config.separator depth (front ++ '[' :: (inserted ++ rest)) i := by
  intro hat
  have hbracket := (bracket_not_mem_separator config).1
  -- in front of the bracket, within what is inserted, or behind it
  by_cases hi : i ≤ front.length
  · rw [standsAt_append_cons_iff hbracket hi, ← standsAt_append_cons_iff hbracket hi] at hat
    exact h i hat
  · obtain ⟨j, rfl⟩ : ∃ j, i = front.length + (j + 1) := ⟨i - front.length - 1, by omega⟩
    rw [standsAt_length_add, standsAt_succ] at hat
    have hdepth : deepen (front.foldl deepen depth) '[' = front.foldl deepen depth + 1 := rfl
    by_cases hj : j ≤ inserted.length
    · exact not_standsAt_inside hopen hclose (by omega) hj rest hat
    · -- behind what is inserted the depth is what it was
      obtain ⟨k, rfl⟩ : ∃ k, j = inserted.length + k := ⟨j - inserted.length, by omega⟩
      rw [standsAt_length_add, foldl_deepen_of_not_mem hopen hclose, ← standsAt_succ,
        ← standsAt_length_add] at hat
      exact h _ hat

/-- Text without brackets that is inserted into the base of a token, behind an opening bracket,
    leaves the variants as they are. -/
theorem split_insert {raw front inserted rest : Text} (hopen : '[' ∉ inserted)
    (hclose : ']' ∉ inserted) (h : (split config.separator raw).base = front ++ '[' :: rest) :
    split config.separator ((split config.separator raw).variants.flatMap (· ++ config.separator) ++
        (front ++ '[' :: (inserted ++ rest))) =
      ⟨(split config.separator raw).variants, front ++ '[' :: (inserted ++ rest)⟩ := by
  obtain ⟨hclosed, huncut⟩ := separated_toList_iff.1 (separated_split config raw)
  rw [h] at huncut
  exact split_join config (s := ⟨_, front ++ '[' :: (inserted ++ rest)⟩) hclosed
    (not_standsAt_insert config hopen hclose huncut)

end Segments

/-! ## Modifiers -/

namespace Modifier

/-- Where no slash stands, no modifier begins. -/
theorem split_append_of_not_mem {front : Text} (h : '/' ∉ front) (rest : Text) :
    split (front ++ rest) = (front ++ (split rest).1, (split rest).2) := by
  -- character by character: a modifier begins with a slash
  induction front with
  | nil => rfl
  | cons c more ih =>
    obtain ⟨hc, hmore⟩ := not_or.1 (mt List.mem_cons.2 h)
    rw [List.cons_append, split]
    have hnone : behindSlash? (c :: (more ++ rest)) = none := if_neg (Ne.symm hc)
    rw [hnone, ih hmore]
    rfl

/-- A text with an opening bracket behind its first character is no modifier. -/
theorem ofText?_dash_bracket (front rest : Text) :
    ofText? (front ++ '-' :: '[' :: rest) = none := by
  have hbracketed : bracketed? (front ++ '-' :: '[' :: rest) = none := by
    rw [Option.eq_none_iff_forall_ne_some]
    intro inner hinner
    -- a bracket is within the text, which a modifier in brackets has at its ends alone
    obtain ⟨hlines, -, hopen, -⟩ := bracketed?_eq_some_iff.1 hinner
    have hbehind : '[' ∈ (front ++ '-' :: '[' :: rest).tail := by cases front <;> simp
    rcases hlines with ht | ht
    all_goals
      rw [ht] at hbehind
      simp [hopen] at hbehind
  unfold ofText?
  rw [hbracketed]
  dsimp only
  rw [if_neg]
  intro hok
  simp [isBracket] at hok

/-- In front of a bracket with a dash no modifier begins. -/
theorem split_append_dash_bracket (name rest : Text) :
    split (name ++ '-' :: '[' :: rest) =
      (name ++ '-' :: '[' :: (split rest).1, (split rest).2) := by
  -- a slash in the name has the bracket behind it, and not right behind it
  induction name with
  | nil => exact split_append_of_not_mem (show '/' ∉ ['-', '['] by decide) rest
  | cons c more ih =>
    rw [List.cons_append, split]
    have hnone : behindSlash? (c :: (more ++ '-' :: '[' :: rest)) = none := by
      rw [behindSlash?, ofText?_dash_bracket, ite_self]
    rw [hnone, ih]
    rfl

/-- Text without a slash behind the bracket is kept in front of the modifier. -/
theorem split_insert {name inserted rest kept : Text} {parts : List Part} (h : '/' ∉ inserted)
    (hsplit : split (name ++ '-' :: '[' :: rest) = (name ++ '-' :: '[' :: kept, parts)) :
    split (name ++ '-' :: '[' :: (inserted ++ rest)) =
      (name ++ '-' :: '[' :: (inserted ++ kept), parts) := by
  rw [split_append_dash_bracket, Prod.mk.injEq] at hsplit
  obtain ⟨hkept, rfl⟩ := hsplit
  obtain rfl : (split rest).1 = kept := by simpa using hkept
  rw [split_append_dash_bracket, split_append_of_not_mem h]

end Modifier

/-! ## Bodies -/

namespace Body

/-- The text with more text behind its leftmost `-[`. -/
def insert (inserted t : Text) : Text :=
  match Text.cut? ['-', '['] t with
  | some (name, rest) => name ++ '-' :: '[' :: (inserted ++ rest)
  | none => t

/-- The leftmost `-[` of a name with a bracketed value is the one behind the name. -/
theorem cut?_bracketedText {name : Text} (hname : ¬ ['-', '['] <:+: name) (inner : Text) :
    Text.cut? ['-', '['] (bracketedText name inner) = some (name, inner ++ [']']) :=
  cut?_dash_bracket_iff.2 ⟨by rw [bracketedText, List.append_assoc], hname⟩

/-- What is inserted into a name with a bracketed value stands in front of the value. -/
theorem insert_bracketedText {name : Text} (hname : ¬ ['-', '['] <:+: name)
    (inserted inner : Text) :
    insert inserted (bracketedText name inner) = bracketedText name (inserted ++ inner) := by
  rw [insert, cut?_bracketedText hname]
  simp [bracketedText]

/-- A tag and its colon hold neither brackets nor slashes. -/
theorem not_mem_tag_colon {tag : Text} (h : isTag tag = true) {c : Char}
    (hc : c = '[' ∨ c = ']' ∨ c = '/') : c ∉ tag ++ [':'] := by
  intro hmem
  rcases List.mem_append.1 hmem with hmem | hmem
  -- a tag holds letters, digits and dashes
  · have htag := of_mem_tag h hmem
    rcases hc with rfl | rfl | rfl <;> exact absurd htag (by decide)
  · rcases hc with rfl | rfl | rfl <;> exact absurd hmem (by decide)

/-- In a declaration a bracket behind a dash stands in the value: the name has no bracket. -/
theorem IsDeclaration.exists_of_dash_bracket {n v name rest : Text} (hdecl : IsDeclaration n v)
    (h : name ++ '-' :: '[' :: rest = '[' :: n ++ ':' :: v) :
    ∃ x, name = '[' :: n ++ ':' :: x ∧ v = x ++ '-' :: '[' :: rest := by
  rcases List.append_eq_append_iff.1 h with ⟨more, hn, hrest⟩ | ⟨more, hname, hrest⟩
  · -- the name of the declaration would reach behind the bracket
    exfalso
    obtain ⟨x, rfl⟩ : ∃ x, more = '-' :: '[' :: x := by
      rcases more with _ | ⟨a, _ | ⟨b, x⟩⟩
      · exact absurd (List.cons.inj hrest).1 (by decide)
      · exact absurd (List.cons.inj (List.cons.inj hrest).2).1 (by decide)
      · obtain ⟨rfl, hx⟩ := List.cons.inj hrest
        obtain ⟨rfl, -⟩ := List.cons.inj hx
        exact ⟨x, rfl⟩
    have hmem : '[' ∈ n := by
      cases name with
      | nil => exact absurd (List.cons.inj hn).1 (by decide)
      | cons c front => rw [(List.cons.inj hn).2]; simp
    exact absurd (hdecl.name_chars _ hmem) (by decide)
  · cases more with
    | nil => exact absurd (List.cons.inj hrest).1 (by decide)
    | cons c x =>
      obtain ⟨rfl, hv⟩ := List.cons.inj hrest
      exact ⟨x, hname, hv⟩

/-- A tag in front of a value does not turn the text into a declaration: a declaration goes on
    behind the bracket without the tag, too. -/
theorem spellsDeclaration_of_tagged {name tag inner : Text}
    (h : SpellsDeclaration (bracketedText name (tag ++ ':' :: inner))) :
    SpellsDeclaration (bracketedText name inner) := by
  obtain ⟨n, v, hdecl, ht⟩ := h
  have hlast : bracketedText name (tag ++ ':' :: inner) = declarationText n v := by
    rcases ht with ht | ht
    · exact ht
    · exact absurd (List.append_inj' ht rfl).2 (by decide)
  have hbetween : name ++ '-' :: '[' :: (tag ++ ':' :: inner) = '[' :: n ++ ':' :: v := by
    simpa using (List.append_inj' hlast rfl).1
  obtain ⟨x, hname, hv⟩ := hdecl.exists_of_dash_bracket hbetween
  have hnonblank : ∀ c ∈ x ++ '-' :: '[' :: inner, Text.isBlank c = false := by
    intro c hc
    apply hdecl.value_nonblank
    rw [hv]
    simp only [List.mem_append, List.mem_cons] at hc ⊢
    tauto
  refine ⟨n, x ++ '-' :: '[' :: inner, ⟨hdecl.name_ne_nil, hdecl.name_chars, by simp, hnonblank⟩,
    .inl ?_⟩
  simp [bracketedText, declarationText, hname]

/-- An untagged value keeps its name under a tag, unless the text is read as a declaration. -/
theorem ofText_withTag {name inner tag name' written own : Text} (hname : ¬ ['-', '['] <:+: name)
    (hspells : ¬ SpellsTag inner) (htag : isTag tag = true)
    (h : ofText (bracketedText name inner) = .custom name' written own) :
    (name' = name ∧ written = inner ∧ own = untagged) ∧
      ofText (bracketedText name (tag ++ ':' :: inner)) = .custom name inner tag := by
  -- a declaration would have been read as one
  have hdecl : ¬ SpellsDeclaration (bracketedText name inner) := by
    intro hdecl
    obtain ⟨n, v, hdecl⟩ := hdecl
    rw [ofText, declaration?_eq_some_iff.2 hdecl] at h
    cases h
  rw [ofText_of_spelled (.untagged hname hspells hdecl), custom.injEq] at h
  refine ⟨⟨h.1.symm, h.2.1.symm, h.2.2.symm⟩, ?_⟩
  exact ofText_of_spelled (.tagged hname htag (mt spellsDeclaration_of_tagged hdecl))

/-- A name with a bracketed value is let through if its value may stand, and comes out with the
    canonical form of that value and with the same tag; nothing else comes out as one. -/
theorem verdict_eq_some_custom_iff {ε : Type} {k : Collaborators ε} {b : Body}
    {name value tag : Text} :
    b.verdict k = .ok (some (.custom name value tag)) ↔
      ∃ written, b = .custom name written tag ∧ k.acceptsValue written = .ok true ∧
        k.canonical written = .ok value := by
  -- of the kinds of bodies only this one takes on a value and keeps a tag
  rw [verdict_eq_some_iff]
  cases b with
  | utility name' => simp [value?]
  | property name' written => simp [value?, withValue]
  | custom name' written tag' =>
    simp only [mayStand, value?, withValue, reduceCtorEq, false_and, false_or, Option.some.injEq,
      custom.injEq]
    constructor
    · rintro ⟨haccepts, _, _, rfl, hcan, rfl, rfl, rfl⟩
      exact ⟨_, ⟨rfl, rfl, rfl⟩, haccepts, hcan⟩
    · rintro ⟨_, ⟨rfl, rfl, rfl⟩, haccepts, hcan⟩
      exact ⟨haccepts, _, _, rfl, hcan, rfl, rfl, rfl⟩

end Body

/-! ## Candidates -/

namespace Candidate

/-- The token is a name with a bracketed value that carries no tag. -/
def IsUntagged (config : Config) (raw : Text) : Prop :=
  ∃ name inner, bodyText? config raw = some (Body.bracketedText name inner) ∧
    ¬ ['-', '['] <:+: name ∧ ¬ Body.SpellsTag inner

/-- The token with more text behind the leftmost `-[` of its body. -/
def insert (config : Config) (inserted raw : Text) : Text :=
  match Flagged.ofBase? config (Segments.split config.separator raw).base with
  | none => raw
  | some flagged =>
    let body := (Modifier.split flagged.text).1
    raw.take (raw.length - flagged.text.length) ++ Body.insert inserted body ++
      flagged.text.drop body.length

/-- The token with a tag and a colon behind the leftmost `-[` of its body. -/
def withTag (config : Config) (tag raw : Text) : Text := insert config (tag ++ [':']) raw

/-- Text is inserted behind what stands in front of the body, and in front of the modifier. -/
theorem insert_eq {config : Config} {raw front body behind : Text} {flagged : Flagged}
    (inserted : Text)
    (hbase : Flagged.ofBase? config (Segments.split config.separator raw).base = some flagged)
    (hraw : raw = front ++ flagged.text) (hbody : (Modifier.split flagged.text).1 = body)
    (htext : flagged.text = body ++ behind) :
    insert config inserted raw = front ++ (Body.insert inserted body ++ behind) := by
  -- what is left of the front is as long as the token without its text
  have hfront : raw.take (raw.length - flagged.text.length) = front := by
    rw [hraw, List.length_append, Nat.add_sub_cancel, List.take_left]
  have hbehind : flagged.text.drop body.length = behind := by rw [htext, List.drop_left]
  unfold insert
  rw [hbase]
  dsimp only
  rw [hbody, hfront, hbehind, List.append_assoc]

/-- The body of a candidate is read from what is left of the token. -/
theorem body_eq_of_bodyText? {config : Config} {raw text : Text} {c : Candidate}
    (h : ofToken config raw = .ok c) (htext : bodyText? config raw = some text) :
    c.body = Body.ofText text := by
  obtain ⟨-, flagged, hbase, -, rfl⟩ := ofToken_eq_ok_iff.1 h
  rw [bodyText?, hbase, Option.map_some, Option.some.injEq] at htext
  rw [htext]

/-- Text without brackets and slashes that is inserted into a token goes into the body, and
    everything else is read as before. -/
theorem ofToken_insert {config : Config} {raw name rest inserted text : Text} {c : Candidate}
    (h : ofToken config raw = .ok c) (htext : bodyText? config raw = some text)
    (hcut : Text.cut? ['-', '['] text = some (name, rest))
    (hfree : ∀ d, d = '[' ∨ d = ']' ∨ d = '/' → d ∉ inserted) :
    ofToken config (insert config inserted raw) =
      .ok { c with
        raw := insert config inserted raw
        body := Body.ofText (Body.insert inserted text) } := by
  obtain ⟨-, flagged, hbase, -, rfl⟩ := ofToken_eq_ok_iff.1 h
  rw [bodyText?, hbase, Option.map_some, Option.some.injEq] at htext
  have hbody : Body.insert inserted text = name ++ '-' :: '[' :: (inserted ++ rest) := by
    rw [Body.insert, hcut]
  -- the token is what is in front of the body, the body, and what stands behind it
  obtain ⟨front, hfront, hflags⟩ := Flagged.exists_ofBase?_replace hbase
  obtain ⟨behind, hbehind⟩ := Modifier.split_fst_prefix flagged.text
  obtain rfl : text = name ++ '-' :: '[' :: rest := by
    simpa using (Body.cut?_dash_bracket_iff.1 hcut).1
  rw [htext] at hbehind
  have hinsert : insert config inserted raw =
      (Segments.split config.separator raw).variants.flatMap (· ++ config.separator) ++
        (front ++ name ++ ['-'] ++ '[' :: (inserted ++ (rest ++ behind))) := by
    have hraw := (Segments.join_split config.separator raw).symm
    rw [Segments.join, hfront, ← List.append_assoc] at hraw
    rw [insert_eq inserted hbase hraw htext hbehind.symm, hbody]
    simp
  -- each stage is followed with the text in place: variants, flags, modifier
  have hsegments : Segments.split config.separator (insert config inserted raw) =
      ⟨(Segments.split config.separator raw).variants,
        front ++ name ++ ['-'] ++ '[' :: (inserted ++ (rest ++ behind))⟩ := by
    rw [hinsert]
    apply Segments.split_insert config (hfree _ (.inl rfl)) (hfree _ (.inr (.inl rfl)))
    rw [hfront, ← hbehind]
    simp
  have hflagged : Flagged.ofBase? config
      (front ++ name ++ ['-'] ++ '[' :: (inserted ++ (rest ++ behind))) =
      some { flagged with text := name ++ '-' :: '[' :: (inserted ++ (rest ++ behind)) } := by
    -- the dash stands in front of the text, so the first character is the same
    have hhead : (name ++ '-' :: '[' :: (inserted ++ (rest ++ behind))).head? =
        flagged.text.head? := by
      rw [← hbehind, List.append_assoc]
      exact head?_append_congr name rfl
    simpa using hflags _ hhead
  have hparts : Modifier.split (name ++ '-' :: '[' :: (inserted ++ (rest ++ behind))) =
      (Body.insert inserted (name ++ '-' :: '[' :: rest), (Modifier.split flagged.text).2) := by
    rw [hbody]
    apply Modifier.split_insert (hfree _ (.inr (.inr rfl)))
    rw [← htext, ← List.cons_append, ← List.cons_append, ← List.append_assoc, hbehind]
  refine ofToken_eq_ok_iff.2 ⟨by simp [hinsert], _, by rw [hsegments]; exact hflagged, ?_, ?_⟩
  · rw [hparts, hbody]
    simp
  · rw [hsegments, hparts]

/-- A tag that is written into a token in front of an untagged value is read back, and everything
    else is read as before. -/
theorem ofToken_withTag {config : Config} {raw tag name written own : Text} {c : Candidate}
    (h : ofToken config raw = .ok c) (hcustom : c.body = .custom name written own)
    (huntagged : IsUntagged config raw) (htag : Body.isTag tag = true) :
    ofToken config (withTag config tag raw) =
      .ok { c with raw := withTag config tag raw, body := .custom name written tag } := by
  obtain ⟨name', inner, htext, hname, hspells⟩ := huntagged
  -- the body that the token spells is the one with the value between the brackets
  rw [body_eq_of_bodyText? h htext] at hcustom
  obtain ⟨⟨rfl, rfl, -⟩, htagged⟩ := Body.ofText_withTag hname hspells htag hcustom
  have hread := ofToken_insert h htext (Body.cut?_bracketedText hname written)
    (fun d => Body.not_mem_tag_colon htag)
  rw [Body.insert_bracketedText hname, List.append_assoc, List.singleton_append, htagged] at hread
  exact hread

end Candidate

/-! ## Inferred types -/

namespace DataType

/-- An inferred type can be written as a tag that is not the one for untagged values, and the tag
    fits the value. -/
theorem tag_of_infer? [ColorReader] {value : Text} {d : DataType} (h : infer? value = some d) :
    Body.isTag d.name = true ∧ d.name ≠ Body.untagged ∧ tagAccepts d.name value = true := by
  have haccepts : d.accepts value = true := by simpa using List.find?_some h
  have hmem : d ∈ inferenceOrder := List.mem_of_find?_eq_some h
  refine ⟨by cases d <;> decide, ?_, by rw [tagAccepts, ofName?_name, Option.any_some, haccepts]⟩
  -- the type of untagged values is not inferred
  have hany : DataType.any ∉ inferenceOrder := by decide
  intro hname
  have hd := ofName?_name d
  rw [hname] at hd
  obtain rfl : DataType.any = d := Option.some.inj hd
  exact hany hmem

end DataType

namespace Candidate

/-- The type that is inferred for the value of an accepted, untagged token can be written into the
    token as a tag.  The token with the tag is accepted as the same candidate with the tag, and both
    reports say that the tag fits the value. -/
theorem parse_withTag [ColorReader] {ε : Type} {k : Collaborators ε} {config : Config} {raw : Text}
    {c : Candidate} {name value own : Text} {d : DataType}
    (h : (parse k config raw).answer = .ok (some c)) (hcustom : c.body = .custom name value own)
    (huntagged : IsUntagged config raw) (hinfer : DataType.infer? value = some d) :
    ∃ tagged : Candidate,
      tagged = { c with raw := withTag config d.name raw, body := .custom name value d.name } ∧
      (parse k config (withTag config d.name raw)).answer = .ok (some tagged) ∧
      (∀ empty, tagged.toJson empty = .object (tagged.jsonFields empty ++
        ([("value", .string value), ("valueType", .string d.name), ("typeMatches", .bool true)] :
          List (Text × Json)))) ∧
      Report.bodyLines tagged.body =
        ["  value: ".toList ++ value, "  type: ".toList ++ d.name] := by
  obtain ⟨htag, hany, hfits⟩ := DataType.tag_of_infer? hinfer
  obtain ⟨source, hsource, body, hverdict, rfl⟩ := parse_eq_some_iff.1 h
  obtain rfl : body = .custom name value own := hcustom
  obtain ⟨written, hwritten, haccepts, hcan⟩ := Body.verdict_eq_some_custom_iff.1 hverdict
  -- the judges are asked about the value as it is written, and the tag has no part in that
  refine ⟨_, rfl, ?_, ?_, ?_⟩
  · exact parse_eq_some_iff.2 ⟨_, ofToken_withTag hsource hwritten huntagged htag, _,
      Body.verdict_eq_some_custom_iff.2 ⟨written, rfl, haccepts, hcan⟩, rfl⟩
  · intro empty
    rw [toJson, Body.jsonFields, if_neg hany, hfits]
  · rw [Report.bodyLines, Report.typeText, if_neg hany, if_pos hfits]

/-- The separator is a letter of the tag, the name has a bracket and a slash, and the value has a
    colon itself. -/
theorem parse_withTag_address :
    ∃ config : Config, config.separator = ['r'] ∧ config.requiredPrefix = ['x', '-'] ∧
      withTag config "url" "mdr[:r]r!x--a]/-[url(a:b_c)]/[m]" =
        "mdr[:r]r!x--a]/-[url:url(a:b_c)]/[m]".toList ∧
      ∃ c tagged : Candidate,
        (parse .standard config "mdr[:r]r!x--a]/-[url(a:b_c)]/[m]").answer = .ok (some c) ∧
        c.variants = [.plain "md", .bracketed ":r"] ∧ c.modifiers = [.bracketed "m"] ∧
        c.body = .custom "a]/" "url(a:b_c)" "any" ∧
        (parse .standard config "mdr[:r]r!x--a]/-[url:url(a:b_c)]/[m]").answer =
          .ok (some tagged) ∧
        tagged = { c with
          raw := "mdr[:r]r!x--a]/-[url:url(a:b_c)]/[m]"
          body := .custom "a]/" "url(a:b_c)" "url" } := by
  let config : Config := ⟨"r", "x-", true, by decide, by decide, by decide⟩
  let raw : Text := "mdr[:r]r!x--a]/-[url(a:b_c)]/[m]"
  let c : Candidate := ⟨raw, "x-", true, true, [.plain "md", .bracketed ":r"], [.bracketed "m"],
    .custom "a]/" "url(a:b_c)" "any"⟩
  have h : (parse .standard config raw).answer = .ok (some c) := by decide +kernel
  have hbodyText : bodyText? config raw = some (Body.bracketedText "a]/" "url(a:b_c)") := by
    decide +kernel
  have huntagged : IsUntagged config raw := ⟨_, _, hbodyText, by decide, by decide⟩
  have hinfer : DataType.infer? "url(a:b_c)" = some .url := by decide +kernel
  have hraw : withTag config DataType.url.name raw =
      "mdr[:r]r!x--a]/-[url:url(a:b_c)]/[m]".toList := by decide +kernel
  obtain ⟨tagged, htagged, hparse, -, -⟩ := parse_withTag h rfl huntagged hinfer
  rw [hraw] at htagged hparse
  exact ⟨config, rfl, rfl, hraw, c, tagged, h, rfl, rfl, rfl, hparse, htagged⟩

end Candidate

end UtilityClass
