import UtilityClass.Text.Basic

/-!
# Segments

A token is cut at every separator that stands outside of square brackets: the last segment is its
base, the segments before it are its variants.  Depth is counted from zero at the start of each
segment, `[` adding one and `]` taking one away but never going below zero.

Splitting ends because a cut at a non-empty separator leaves a shorter text (`length_lt_of_cut?`).
-/

namespace UtilityClass

/-- The variants of a token in order, and its base. -/
structure Segments where
  variants : List Text
  base : Text
  deriving DecidableEq, Repr

namespace Segments

/-- The bracket depth after one more character. -/
def deepen (depth : Nat) (c : Char) : Nat :=
  if c = '[' then depth + 1 else if c = ']' then depth - 1 else depth

/-- What follows a separator that stands at the front of the text, at depth zero and not on a
square bracket. -/
def afterSeparator? (separator : Text) (depth : Nat) : Text → Option Text
  | [] => none
  | c :: rest =>
    if depth = 0 ∧ c ≠ '[' ∧ c ≠ ']' then separator.isPrefixOf? (c :: rest) else none

/-- What stands before and after the first separator at depth zero. -/
def cut? (separator : Text) (depth : Nat) : Text → Option (Text × Text)
  | [] => none
  | c :: rest =>
    match afterSeparator? separator depth (c :: rest) with
    | some after => some ([], after)
    | none =>
      (cut? separator (deepen depth c) rest).map fun (front, after) => (c :: front, after)

/-- A cut at a non-empty separator leaves a shorter text. -/
theorem length_lt_of_cut? {separator : Text} {depth : Nat} {t front after : Text}
    (hne : separator ≠ []) (h : cut? separator depth t = some (front, after)) :
    after.length < t.length := by
  induction t generalizing depth front with
  | nil => exact nomatch h
  | cons c rest ih =>
    rw [cut?] at h
    split at h
    · next hafter =>
      rw [afterSeparator?] at hafter
      split at hafter
      · rw [Text.length_of_isPrefixOf? hafter, (Prod.mk.inj (Option.some.inj h)).2]
        exact Nat.lt_add_of_pos_left (List.length_pos_iff.2 hne)
      · exact nomatch hafter
    · obtain ⟨⟨front', after'⟩, hcut, heq⟩ := Option.map_eq_some_iff.1 h
      obtain ⟨-, rfl⟩ := Prod.mk.inj heq
      exact Nat.lt_succ_of_lt (ih hcut)

/-- Cuts a token into segments.  An empty separator cuts nothing. -/
def split (separator t : Text) : Segments :=
  if _hne : separator = [] then ⟨[], t⟩
  else
    match _hcut : cut? separator 0 t with
    | none => ⟨[], t⟩
    | some (segment, after) =>
      let more := split separator after
      ⟨segment :: more.variants, more.base⟩
termination_by t.length
decreasing_by exact length_lt_of_cut? _hne _hcut

/-- The token that the segments were cut from. -/
def join (separator : Text) (s : Segments) : Text :=
  s.variants.flatMap (· ++ separator) ++ s.base

end Segments

end UtilityClass
