import UtilityClass.Text.Basic

/-!
# Addresses in values

An *address* is the text from `url(` to the first `)` behind it, with no line feed between.  A
value is cut into its leftmost, non-overlapping addresses and the gaps around them.

Cutting ends because what follows an address is shorter (`length_lt_of_cutAddress?`).
-/

namespace UtilityClass.Value

/-- A piece of a value. -/
inductive Piece where
  | gap (text : Text)
  | address (text : Text)
  deriving DecidableEq, Repr

/-- The characters of a piece. -/
def Piece.text : Piece → Text
  | gap t | address t => t

/-- How an address opens. -/
def addressLead : Text := "url("

/-- The text up to and with the first `)`, and what follows, if no line feed comes first. -/
def closeAddress? : Text → Option (Text × Text)
  | [] => none
  | c :: rest =>
    if c = ')' then some ([c], rest)
    else if c = '\n' then none
    else (closeAddress? rest).map fun (inner, after) => (c :: inner, after)

/-- The address at the front of a text, and what follows it. -/
def addressAt? (t : Text) : Option (Text × Text) :=
  match addressLead.isPrefixOf? t with
  | some rest => (closeAddress? rest).map fun (inner, after) => (addressLead ++ inner, after)
  | none => none

/-- The leftmost address of a text: what stands before it, the address, and what follows. -/
def cutAddress? : Text → Option (Text × Text × Text)
  | [] => none
  | c :: rest =>
    match addressAt? (c :: rest) with
    | some (address, after) => some ([], address, after)
    | none =>
      (cutAddress? rest).map fun (front, address, after) => (c :: front, address, after)

/-- What follows the `)` is shorter than the text that holds it. -/
theorem length_lt_of_closeAddress? {t inner after : Text}
    (h : closeAddress? t = some (inner, after)) : after.length < t.length := by
  induction t generalizing inner with
  | nil => exact nomatch h
  | cons c rest ih =>
    rw [closeAddress?] at h
    split at h
    · rw [← (Prod.mk.inj (Option.some.inj h)).2]
      exact Nat.lt_succ_self _
    · split at h
      · exact nomatch h
      · obtain ⟨⟨inner', after'⟩, hclose, heq⟩ := Option.map_eq_some_iff.1 h
        obtain ⟨-, rfl⟩ := Prod.mk.inj heq
        exact Nat.lt_succ_of_lt (ih hclose)

/-- What follows an address is shorter than the text that begins with it. -/
theorem length_lt_of_addressAt? {t address after : Text}
    (h : addressAt? t = some (address, after)) : after.length < t.length := by
  rw [addressAt?] at h
  split at h
  · next rest hrest =>
    obtain ⟨⟨inner, after'⟩, hclose, heq⟩ := Option.map_eq_some_iff.1 h
    rw [Text.length_of_isPrefixOf? hrest, ← (Prod.mk.inj heq).2]
    exact Nat.lt_add_left _ (length_lt_of_closeAddress? hclose)
  · exact nomatch h

/-- What follows an address is shorter than the text that holds it. -/
theorem length_lt_of_cutAddress? {t front address after : Text}
    (h : cutAddress? t = some (front, address, after)) : after.length < t.length := by
  induction t generalizing front with
  | nil => exact nomatch h
  | cons c rest ih =>
    rw [cutAddress?] at h
    split at h
    · next hat =>
      rw [← (Prod.mk.inj (Prod.mk.inj (Option.some.inj h)).2).2]
      exact length_lt_of_addressAt? hat
    · obtain ⟨⟨front', address', after'⟩, hcut, heq⟩ := Option.map_eq_some_iff.1 h
      obtain ⟨-, -, rfl⟩ := Prod.mk.inj heq
      exact Nat.lt_succ_of_lt (ih hcut)

/-- The gaps and addresses of a value in order; a gap stands before each address and at the end. -/
def pieces (t : Text) : List Piece :=
  match _h : cutAddress? t with
  | none => [.gap t]
  | some (front, address, after) => .gap front :: .address address :: pieces after
termination_by t.length
decreasing_by exact length_lt_of_cutAddress? _h

end UtilityClass.Value
