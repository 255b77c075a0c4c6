import Mathlib.Algebra.Group.Nat.Defs
import Mathlib.Data.List.Basic
import UtilityClass.Report.Json

/-!
# Documents are told apart by their texts

The layout of a JSON value can be read off the front of any text that goes on with no digit: nothing
in it can be taken for the layout of another value with something else behind it.  So two values
with the same text are the same.

Strings are read in the same way, escape by escape.  `Escaped` has one rule for each form that a
character takes inside of a string; the forms differ in their first two characters, and a character
past the basic plane takes two units, of which the first stands for no character of its own.

## Key results

- `escape_append_inj`: an escape is read off the front of any text
- `quote_append_inj`: so is a string
- `block_append_inj`: so are items between borders, if each item is
- `render_append_inj` / `render_injective`: so is any value
-/

namespace UtilityClass.Json

variable {s s' : Text}

/-! ## Hexadecimal digits -/

/-- A code is written with as many digits as asked for. -/
theorem length_hexDigits (width code : Nat) : (Text.hexDigits width code).length = width := by
  induction width generalizing code with
  | zero => rfl
  | succ width ih => rw [Text.hexDigits, List.length_append, ih, List.length_singleton]

/-- Codes that fit into the width are told apart by their digits. -/
theorem hexDigits_inj {width m n : Nat} (hm : m < 16 ^ width) (hn : n < 16 ^ width)
    (h : Text.hexDigits width m = Text.hexDigits width n) : m = n := by
  have hdigit : ∀ i < 16, ∀ j < 16, Nat.digitChar i = Nat.digitChar j → i = j := by decide
  -- the last digits are the remainders, and the others are the digits of the quotients
  induction width generalizing m n with
  | zero => omega
  | succ width ih =>
    rw [Text.hexDigits, Text.hexDigits] at h
    obtain ⟨hfront, hlast⟩ := List.append_inj' h rfl
    have hmod : m % 16 = n % 16 :=
      hdigit _ (Nat.mod_lt _ (by decide)) _ (Nat.mod_lt _ (by decide)) (List.cons.inj hlast).1
    rw [Nat.pow_succ] at hm hn
    have hdiv : m / 16 = n / 16 :=
      ih (Nat.div_lt_of_lt_mul (by omega)) (Nat.div_lt_of_lt_mul (by omega)) hfront
    omega

/-- A unit is read off the front of any text: it has four digits behind its two marks. -/
theorem unit_append_inj {m n : Nat} (hm : m < 0x10000) (hn : n < 0x10000)
    (h : unit m ++ s = unit n ++ s') : m = n ∧ s = s' := by
  have hdigits : Text.hexDigits 4 m ++ s = Text.hexDigits 4 n ++ s' :=
    (List.cons.inj (List.cons.inj h).2).2
  obtain ⟨hsame, hrest⟩ :=
    List.append_inj hdigits ((length_hexDigits 4 m).trans (length_hexDigits 4 n).symm)
  exact ⟨hexDigits_inj hm hn hsame, hrest⟩

/-! ## Characters -/

/-- The character that a letter behind a backslash stands for. -/
def unescaped (letter : Char) : Char :=
  if letter = 'n' then '\n'
  else if letter = 'r' then '\r'
  else if letter = 't' then '\t'
  else if letter = 'b' then '\x08'
  else if letter = 'f' then '\x0c'
  else letter

/-- The high unit of a character past the basic plane. -/
def highUnit (c : Char) : Nat := 0xD800 + (c.toNat - 0x10000) / 0x400

/-- The low unit of a character past the basic plane. -/
def lowUnit (c : Char) : Nat := 0xDC00 + (c.toNat - 0x10000) % 0x400

/-- The forms of a character inside of a string. -/
inductive Escaped : Char → Text → Prop
  | plain {c : Char} (hquote : c ≠ '"') (hslash : c ≠ '\\') : Escaped c [c]
  | short {letter : Char} (h : letter ≠ 'u') : Escaped (unescaped letter) ['\\', letter]
  | one {c : Char} (h : c.toNat < 0x10000) : Escaped c (unit c.toNat)
  | two {c : Char} (h : 0x10000 ≤ c.toNat) : Escaped c (unit (highUnit c) ++ unit (lowUnit c))

/-- A character is written in one of the forms. -/
theorem escaped_escape (c : Char) : Escaped c (escape c) := by
  -- the branches of the function one by one: a mark, a printable character, the letters, one unit,
  -- two units
  unfold escape
  split
  · next hc =>
    rcases hc with rfl | rfl
    · exact @Escaped.short '"' (by decide)
    · exact @Escaped.short '\\' (by decide)
  · next hmark =>
    rw [not_or] at hmark
    split
    · exact .plain hmark.1 hmark.2
    · split
      · next hc => subst hc; exact @Escaped.short 'n' (by decide)
      · split
        · next hc => subst hc; exact @Escaped.short 'r' (by decide)
        · split
          · next hc => subst hc; exact @Escaped.short 't' (by decide)
          · split
            · next hc => subst hc; exact @Escaped.short 'b' (by decide)
            · split
              · next hc => subst hc; exact @Escaped.short 'f' (by decide)
              · split
                · next hplane => exact .one hplane
                · next hplane => exact .two (by omega)

/-- A character is no half of another one: the codes of units of pairs are not in use. -/
theorem toNat_not_unit (c : Char) : c.toNat < 0xD800 ∨ 0xDFFF < c.toNat ∧ c.toNat < 0x110000 :=
  c.valid

/-- Characters are told apart by their codes. -/
theorem toNat_inj {c d : Char} (h : c.toNat = d.toNat) : c = d := Char.toNat_inj.1 h

/-- Two characters whose forms stand at the front of one text are the same. -/
theorem Escaped.append_inj {c d : Char} {x y : Text} (hx : Escaped c x) (hy : Escaped d y)
    (h : x ++ s = y ++ s') : c = d ∧ s = s' := by
  have hc := toNat_not_unit c
  have hd := toNat_not_unit d
  -- sixteen pairs of forms; different forms differ in their first two characters, except one unit
  -- and two, where the first of two would be half of a character
  cases hx with
  | plain _ hslash =>
    cases hy with
    | plain _ _ => exact List.cons.inj h
    | short _ => exact absurd (List.cons.inj h).1 hslash
    | one _ => exact absurd (List.cons.inj h).1 hslash
    | two _ => exact absurd (List.cons.inj h).1 hslash
  | short hletter =>
    cases hy with
    | plain _ hslash => exact absurd (List.cons.inj h).1.symm hslash
    | short _ =>
      obtain ⟨rfl, hrest⟩ := List.cons.inj (List.cons.inj h).2
      exact ⟨rfl, hrest⟩
    | one _ => exact absurd (List.cons.inj (List.cons.inj h).2).1 hletter
    | two _ => exact absurd (List.cons.inj (List.cons.inj h).2).1 hletter
  | one hplane =>
    cases hy with
    | plain _ hslash => exact absurd (List.cons.inj h).1.symm hslash
    | short hletter => exact absurd (List.cons.inj (List.cons.inj h).2).1.symm hletter
    | one hplane' =>
      obtain ⟨hsame, hrest⟩ := unit_append_inj hplane hplane' h
      exact ⟨toNat_inj hsame, hrest⟩
    | two hplane' =>
      rw [List.append_assoc] at h
      have hunit := (unit_append_inj hplane (by unfold highUnit; omega) h).1
      unfold highUnit at hunit
      omega
  | two hplane =>
    cases hy with
    | plain _ hslash => exact absurd (List.cons.inj h).1.symm hslash
    | short hletter => exact absurd (List.cons.inj (List.cons.inj h).2).1.symm hletter
    | one hplane' =>
      rw [List.append_assoc] at h
      have hunit := (unit_append_inj (by unfold highUnit; omega) hplane' h).1
      unfold highUnit at hunit
      omega
    | two hplane' =>
      rw [List.append_assoc, List.append_assoc] at h
      obtain ⟨hhigh, hmore⟩ :=
        unit_append_inj (by unfold highUnit; omega) (by unfold highUnit; omega) h
      obtain ⟨hlow, hrest⟩ :=
        unit_append_inj (by unfold lowUnit; omega) (by unfold lowUnit; omega) hmore
      refine ⟨toNat_inj ?_, hrest⟩
      unfold highUnit at hhigh
      unfold lowUnit at hlow
      omega

/-- An escape is read off the front of any text. -/
theorem escape_append_inj {c d : Char} (h : escape c ++ s = escape d ++ s') : c = d ∧ s = s' :=
  (escaped_escape c).append_inj (escaped_escape d) h

/-! ## Strings -/

/-- No form of a character begins like the end of a string. -/
theorem escape_append_ne (c : Char) : escape c ++ s ≠ '"' :: s' := by
  have h := escaped_escape c
  generalize escape c = x at h
  cases h with
  | plain hquote _ => exact fun heq => hquote (List.cons.inj heq).1
  | short _ | one _ | two _ => exact fun heq => absurd (List.cons.inj heq).1 (by decide)

/-- Two strings that stand at the front of one text are the same. -/
theorem quote_append_inj {t t' : Text} (h : quote t ++ s = quote t' ++ s') : t = t' ∧ s = s' := by
  have hinner : t.flatMap escape ++ '"' :: s = t'.flatMap escape ++ '"' :: s' := by
    simpa [quote] using h
  clear h
  -- character by character; a string ends at the quote, which no form begins with
  induction t generalizing t' with
  | nil =>
    cases t' with
    | nil => exact ⟨rfl, (List.cons.inj hinner).2⟩
    | cons d more' =>
      rw [List.flatMap_cons, List.append_assoc] at hinner
      exact absurd hinner.symm (escape_append_ne d)
  | cons c more ih =>
    rw [List.flatMap_cons, List.append_assoc] at hinner
    cases t' with
    | nil => exact absurd hinner (escape_append_ne c)
    | cons d more' =>
      rw [List.flatMap_cons, List.append_assoc] at hinner
      obtain ⟨rfl, hmore⟩ := escape_append_inj hinner
      obtain ⟨rfl, hrest⟩ := ih hmore
      exact ⟨rfl, hrest⟩

/-! ## Numbers -/

/-- Whether a text goes on with no digit. -/
def Stops (s : Text) : Prop := ∀ c ∈ s.head?, c.isDigit = false

/-- The empty text goes on with nothing. -/
theorem stops_nil : Stops [] := nofun

/-- A character that is no digit goes on with no digit. -/
theorem stops_cons {c : Char} (h : c.isDigit = false) (s : Text) : Stops (c :: s) := by
  intro d hd
  rwa [← Option.some.inj hd]

/-- A number is written in digits. -/
theorem isDigit_of_mem_ofNat {n : Nat} {c : Char} (h : c ∈ Text.ofNat n) : c.isDigit = true :=
  Nat.isDigit_of_mem_toDigits (by decide) (by decide) h

/-- The digits of a number are all that stand at the front of a text. -/
theorem takeWhile_ofNat_append (n : Nat) (hs : Stops s) :
    (Text.ofNat n ++ s).takeWhile Char.isDigit = Text.ofNat n := by
  rw [List.takeWhile_append_of_pos fun c hc => isDigit_of_mem_ofNat hc]
  cases s with
  | nil => exact List.append_nil _
  | cons c more =>
    rw [List.takeWhile_cons_of_neg (by rw [hs c rfl]; decide), List.append_nil]

/-- A number is read off the front of any text that goes on with no digit. -/
theorem ofNat_append_inj {m n : Nat} (hs : Stops s) (hs' : Stops s')
    (h : Text.ofNat m ++ s = Text.ofNat n ++ s') : m = n ∧ s = s' := by
  -- both are all the digits at the front of the same text
  have hdigits : Text.ofNat m = Text.ofNat n := by
    rw [← takeWhile_ofNat_append m hs, h, takeWhile_ofNat_append n hs']
  refine ⟨?_, by rw [hdigits] at h; exact List.append_cancel_left h⟩
  rw [← Nat.ofDigitChars_ten_toDigits (n := m), ← Nat.ofDigitChars_ten_toDigits (n := n)]
  exact congrArg (Nat.ofDigitChars 10 · 0) hdigits

/-! ## Blocks -/

/-- What follows the first item of a block. -/
def blockTail (close : Char) (column : Nat) (items : List Text) : Text :=
  items.flatMap (fun item => ',' :: newLine (column + 2) ++ item) ++ newLine column ++ [close]

/-- What follows the first item begins with a comma if there is a second one. -/
theorem blockTail_cons (close : Char) (column : Nat) (item : Text) (items : List Text) :
    blockTail close column (item :: items) =
      ',' :: (newLine (column + 2) ++ (item ++ blockTail close column items)) := by
  simp [blockTail]

/-- A block with items opens with its first item on a line of its own. -/
theorem block_cons (lead close : Char) (column : Nat) (item : Text) (items : List Text) :
    block lead close column (item :: items) =
      lead :: '\n' ::
        (List.replicate (column + 2) ' ' ++ (item ++ blockTail close column items)) := by
  have hitems : List.intercalate (',' :: newLine (column + 2)) (item :: items) =
      item ++ items.flatMap (fun item => ',' :: newLine (column + 2) ++ item) := by
    induction items generalizing item with
    | nil => simp
    | cons next more ih => rw [List.intercalate_cons_cons, ih]; simp
  rw [block, hitems]
  simp [blockTail, newLine]

/-- Behind an item of a block there is no digit. -/
theorem stops_blockTail (close : Char) (column : Nat) (items : List Text) (s : Text) :
    Stops (blockTail close column items ++ s) := by
  cases items with
  | nil => exact stops_cons (by decide) _
  | cons item more => rw [blockTail_cons]; exact stops_cons (by decide) _

/-- Something written with `f` is read off the front of any text that goes on with no digit. -/
def ReadsOff {α : Type} (f : α → Text) (x : α) : Prop :=
  ∀ {y : α} {s s' : Text}, Stops s → Stops s' → f x ++ s = f y ++ s' → x = y ∧ s = s'

/-- What follows the first item is read off the front of any text, if each item is. -/
theorem blockTail_append_inj {α : Type} {f : α → Text} {close : Char} {column : Nat}
    {xs ys : List α} (hf : ∀ x ∈ xs, ReadsOff f x)
    (h : blockTail close column (xs.map f) ++ s = blockTail close column (ys.map f) ++ s') :
    xs = ys ∧ s = s' := by
  -- item by item; a comma goes on with a next item, and a line feed ends the block
  induction xs generalizing ys with
  | nil =>
    cases ys with
    | nil => exact ⟨rfl, List.append_cancel_left h⟩
    | cons y more' =>
      rw [List.map_cons, blockTail_cons] at h
      exact absurd (List.cons.inj h).1 (by decide)
  | cons x more ih =>
    obtain ⟨hx, hmore⟩ := List.forall_mem_cons.1 hf
    rw [List.map_cons, blockTail_cons] at h
    cases ys with
    | nil => exact absurd (List.cons.inj h).1 (by decide)
    | cons y more' =>
      rw [List.map_cons, blockTail_cons, List.cons_append, List.cons_append, List.append_assoc,
        List.append_assoc, List.append_assoc, List.append_assoc] at h
      have hitems := List.append_cancel_left (List.cons.inj h).2
      obtain ⟨rfl, htail⟩ := hx (stops_blockTail _ _ _ _) (stops_blockTail _ _ _ _) hitems
      obtain ⟨rfl, hrest⟩ := ih hmore htail
      exact ⟨rfl, hrest⟩

/-- Items between borders are read off the front of any text, if each of them is. -/
theorem block_append_inj {α : Type} {f : α → Text} {lead close : Char} {column : Nat}
    {xs ys : List α} (hclose : close ≠ '\n') (hf : ∀ x ∈ xs, ReadsOff f x)
    (h : block lead close column (xs.map f) ++ s = block lead close column (ys.map f) ++ s') :
    xs = ys ∧ s = s' := by
  -- without items the border closes on the same line, and with items a line feed comes first
  cases xs with
  | nil =>
    cases ys with
    | nil => exact ⟨rfl, List.append_cancel_left h⟩
    | cons y more' =>
      rw [List.map_cons, block_cons] at h
      exact absurd (List.cons.inj (List.cons.inj h).2).1 hclose
  | cons x more =>
    obtain ⟨hx, hmore⟩ := List.forall_mem_cons.1 hf
    rw [List.map_cons, block_cons] at h
    cases ys with
    | nil => exact absurd (List.cons.inj (List.cons.inj h).2).1.symm hclose
    | cons y more' =>
      rw [List.map_cons, block_cons, List.cons_append, List.cons_append, List.cons_append,
        List.cons_append, List.append_assoc, List.append_assoc, List.append_assoc,
        List.append_assoc] at h
      have hitems := List.append_cancel_left (List.cons.inj (List.cons.inj h).2).2
      obtain ⟨rfl, htail⟩ := hx (stops_blockTail _ _ _ _) (stops_blockTail _ _ _ _) hitems
      obtain ⟨rfl, hrest⟩ := blockTail_append_inj hmore htail
      exact ⟨rfl, hrest⟩

/-! ## Values -/

/-- Induction over values by their items and the values of their fields. -/
@[elab_as_elim]
theorem inductOnItems {P : Json → Prop} (j : Json) (null : P null) (bool : ∀ b, P (bool b))
    (number : ∀ n, P (number n)) (string : ∀ t, P (string t))
    (array : ∀ items, (∀ item ∈ items, P item) → P (array items))
    (object : ∀ fields, (∀ field ∈ fields, P field.2) → P (object fields)) : P j := by
  -- the recursor goes over items, over fields and over a field at once
  refine @Json.rec P (fun items => ∀ item ∈ items, P item)
    (fun fields => ∀ field ∈ fields, P field.2) (fun field => P field.2) null bool number string
    array object nofun ?_ nofun ?_
    (fun _ _ h => h) j
  · exact fun _ _ h hmore => List.forall_mem_cons.2 ⟨h, hmore⟩
  · exact fun _ _ h hmore => List.forall_mem_cons.2 ⟨h, hmore⟩

/-- The items of an array are written one by one. -/
theorem renderItems_eq_map (column : Nat) (items : List Json) :
    renderItems column items = items.map (render column) := by
  induction items with
  | nil => rfl
  | cons item more ih => rw [renderItems, ih, List.map_cons]

/-- A field of an object. -/
def renderField (column : Nat) (field : Text × Json) : Text :=
  quote field.1 ++ [':', ' '] ++ render column field.2

/-- The fields of an object are written one by one. -/
theorem renderFields_eq_map (column : Nat) (fields : List (Text × Json)) :
    renderFields column fields = fields.map (renderField column) := by
  induction fields with
  | nil => rfl
  | cons field more ih => rw [renderFields, ih, List.map_cons]; rfl

/-- The characters that a value can begin with. -/
def opensWith : Json → Char → Bool
  | null, c => c == 'n'
  | bool b, c => c == if b then 't' else 'f'
  | number _, c => c.isDigit
  | string _, c => c == '"'
  | array _, c => c == '['
  | object _, c => c == '\x7b'

/-- A value is written with a first character, one that its kind begins with. -/
theorem exists_render_eq_cons (column : Nat) (j : Json) :
    ∃ c rest, render column j = c :: rest ∧ j.opensWith c = true := by
  have hblock : ∀ lead close items, ∃ rest, block lead close column items = lead :: rest := by
    intro lead close items
    cases items with
    | nil => exact ⟨_, rfl⟩
    | cons item more => exact ⟨_, block_cons _ _ _ _ _⟩
  -- every kind has its own first characters, and only a number needs a look at its digits
  cases j with
  | null => exact ⟨'n', _, rfl, rfl⟩
  | bool b => cases b <;> exact ⟨_, _, rfl, rfl⟩
  | number n =>
    cases hdigits : Text.ofNat n with
    | nil => exact absurd hdigits Nat.toDigits_ne_nil
    | cons c rest =>
      refine ⟨c, rest, by rw [render, hdigits], isDigit_of_mem_ofNat (n := n) ?_⟩
      rw [hdigits]
      exact List.mem_cons_self
  | string t => exact ⟨'"', _, rfl, rfl⟩
  | array items =>
    obtain ⟨rest, hrest⟩ := hblock '[' ']' (renderItems (column + 2) items)
    exact ⟨'[', rest, hrest, rfl⟩
  | object fields =>
    obtain ⟨rest, hrest⟩ := hblock '\x7b' '\x7d' (renderFields (column + 2) fields)
    exact ⟨'\x7b', rest, hrest, rfl⟩

/-- Values of one kind; of two truth values, the same one. -/
inductive Alike : Json → Json → Prop
  | null : Alike null null
  | bool (b : Bool) : Alike (bool b) (bool b)
  | number (m n : Nat) : Alike (number m) (number n)
  | string (t t' : Text) : Alike (string t) (string t')
  | array (items items' : List Json) : Alike (array items) (array items')
  | object (fields fields' : List (Text × Json)) : Alike (object fields) (object fields')

/-- No character begins values of two kinds. -/
theorem alike_of_opensWith {a b : Json} {c : Char} (ha : a.opensWith c = true)
    (hb : b.opensWith c = true) : Alike a b := by
  -- for each kind its first characters, and that no other kind begins with one of these
  cases a with
  | null =>
    obtain rfl := eq_of_beq ha
    cases b with
    | null => exact .null
    | bool b => cases b <;> exact nomatch hb
    | number _ | string _ | array _ | object _ => exact nomatch hb
  | bool a =>
    cases b with
    | bool b =>
      have hletter := (eq_of_beq ha).symm.trans (eq_of_beq hb)
      obtain rfl : a = b := by cases a <;> cases b <;> simp_all
      exact .bool a
    | null | number _ | string _ | array _ | object _ =>
      cases a <;> (obtain rfl := eq_of_beq ha; exact nomatch hb)
  | number m =>
    cases b with
    | number n => exact .number m n
    | bool b => cases b <;> (obtain rfl := eq_of_beq hb; exact nomatch ha)
    | null | string _ | array _ | object _ => obtain rfl := eq_of_beq hb; exact nomatch ha
  | string t =>
    obtain rfl := eq_of_beq ha
    cases b with
    | string t' => exact .string t t'
    | bool b => cases b <;> exact nomatch hb
    | null | number _ | array _ | object _ => exact nomatch hb
  | array items =>
    obtain rfl := eq_of_beq ha
    cases b with
    | array items' => exact .array items items'
    | bool b => cases b <;> exact nomatch hb
    | null | number _ | string _ | object _ => exact nomatch hb
  | object fields =>
    obtain rfl := eq_of_beq ha
    cases b with
    | object fields' => exact .object fields fields'
    | bool b => cases b <;> exact nomatch hb
    | null | number _ | string _ | array _ => exact nomatch hb

/-- Two values at the front of one text are of one kind. -/
theorem alike_of_render_append {column : Nat} {a b : Json}
    (h : render column a ++ s = render column b ++ s') : Alike a b := by
  obtain ⟨c, rest, ha, hc⟩ := exists_render_eq_cons column a
  obtain ⟨d, rest', hb, hd⟩ := exists_render_eq_cons column b
  rw [ha, hb] at h
  obtain rfl : c = d := (List.cons.inj h).1
  exact alike_of_opensWith hc hd

/-- A value is read off the front of any text that goes on with no digit. -/
theorem readsOff_render (column : Nat) (j : Json) : ReadsOff (render column) j := by
  -- on the values; two of one kind remain, and these are compared by their contents
  induction j using inductOnItems generalizing column with
  | null =>
    intro b s s' _ _ h
    cases alike_of_render_append h
    exact ⟨rfl, List.append_cancel_left h⟩
  | bool b =>
    intro b s s' _ _ h
    cases alike_of_render_append h
    exact ⟨rfl, List.append_cancel_left h⟩
  | number n =>
    intro b s s' hs hs' h
    cases alike_of_render_append h
    obtain ⟨rfl, hrest⟩ := ofNat_append_inj hs hs' h
    exact ⟨rfl, hrest⟩
  | string t =>
    intro b s s' _ _ h
    cases alike_of_render_append h
    obtain ⟨rfl, hrest⟩ := quote_append_inj h
    exact ⟨rfl, hrest⟩
  | array items ih =>
    intro b s s' _ _ h
    cases alike_of_render_append h
    rw [render, render, renderItems_eq_map, renderItems_eq_map] at h
    obtain ⟨rfl, hrest⟩ := block_append_inj (by decide) (fun item hitem => ih item hitem _) h
    exact ⟨rfl, hrest⟩
  | object fields ih =>
    intro b s s' _ _ h
    cases alike_of_render_append h
    rw [render, render, renderFields_eq_map, renderFields_eq_map] at h
    have hfields : ∀ field ∈ fields, ReadsOff (renderField (column + 2)) field := by
      intro field hfield other s s' hs hs' hfront
      rw [renderField, renderField, List.append_assoc, List.append_assoc, List.append_assoc,
        List.append_assoc] at hfront
      -- a field is read off by its name first, and then by its value
      obtain ⟨hname, hvalue⟩ := quote_append_inj hfront
      obtain ⟨hsame, hrest⟩ := ih field hfield _ hs hs' (List.append_cancel_left hvalue)
      exact ⟨Prod.ext hname hsame, hrest⟩
    obtain ⟨rfl, hrest⟩ := block_append_inj (by decide) hfields h
    exact ⟨rfl, hrest⟩

/-- No two values have the same layout. -/
theorem render_injective (column : Nat) : Function.Injective (render column) := by
  intro a b h
  exact (readsOff_render column a stops_nil stops_nil (by rw [h])).1

end UtilityClass.Json
