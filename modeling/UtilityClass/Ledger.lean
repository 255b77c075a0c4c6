/-!
# Ledgers

A ledger is a finite map that remembers the order in which its keys first came in.  Writing a key
again replaces its value and keeps its place.

Main statements, each through the views `keys` and `find?`:

- `keys_insert`: a new key comes last, a known key moves nowhere;
- `find?_insert`: the written key has the written value, and no other key changes.
-/

namespace UtilityClass

/-- Pairs of a key and its value, each key once, in the order of first writing. -/
structure Ledger (κ : Type) (ν : Type) where
  entries : List (κ × ν)
  nodup : (entries.map Prod.fst).Nodup

namespace Ledger

variable {κ ν : Type}

/-- The ledger without entries. -/
def empty : Ledger κ ν := ⟨[], List.nodup_nil⟩

/-- The keys in the order of first writing. -/
def keys (l : Ledger κ ν) : List κ := l.entries.map Prod.fst

/-- How many keys the ledger holds. -/
def size (l : Ledger κ ν) : Nat := l.entries.length

/-- Without entries there are no keys. -/
@[simp] theorem keys_empty : (empty : Ledger κ ν).keys = [] := rfl

/-- Each key is held once. -/
theorem nodup_keys (l : Ledger κ ν) : l.keys.Nodup := l.nodup

/-- The size is the number of the keys. -/
theorem length_keys (l : Ledger κ ν) : l.keys.length = l.size := by simp [keys, size]

variable [DecidableEq κ]

/-- The value of a key, if the ledger holds the key. -/
def find? (l : Ledger κ ν) (k : κ) : Option ν := l.entries.lookup k

/-- Whether the ledger holds the key. -/
def contains (l : Ledger κ ν) (k : κ) : Bool := (l.find? k).isSome

/-- Writes a value into a list of entries: over the old one, or else at the end. -/
def write (k : κ) (v : ν) : List (κ × ν) → List (κ × ν)
  | [] => [(k, v)]
  | (k', v') :: rest => if k = k' then (k, v) :: rest else (k', v') :: write k v rest

/-- A key that is written again keeps its place, and a new one comes last. -/
theorem keys_write (k : κ) (v : ν) (es : List (κ × ν)) :
    (write k v es).map Prod.fst =
      if k ∈ es.map Prod.fst then es.map Prod.fst else es.map Prod.fst ++ [k] := by
  induction es with
  | nil => simp [write]
  | cons e rest ih => grind [write]

/-- Writing holds each key once. -/
theorem nodup_write (k : κ) (v : ν) {es : List (κ × ν)} (h : (es.map Prod.fst).Nodup) :
    ((write k v es).map Prod.fst).Nodup := by
  rw [keys_write]
  split
  · exact h
  · next hk =>
    exact List.nodup_append.2 ⟨h, by simp, by
      intro a ha b hb
      rw [List.mem_singleton.1 hb]
      exact fun hab => hk (hab ▸ ha)⟩

/-- Writes a value under a key. -/
def insert (l : Ledger κ ν) (k : κ) (v : ν) : Ledger κ ν :=
  ⟨write k v l.entries, nodup_write k v l.nodup⟩

/-- The ledger after writing the pairs one by one. -/
def ofList (pairs : List (κ × ν)) : Ledger κ ν :=
  pairs.foldl (fun l p => l.insert p.1 p.2) empty

/-! ## Views -/

/-- Without entries nothing is found. -/
@[simp] theorem find?_empty (k : κ) : (empty : Ledger κ ν).find? k = none := rfl

/-- A key is among the keys exactly when it has a value. -/
theorem mem_keys_iff (l : Ledger κ ν) (k : κ) : k ∈ l.keys ↔ (l.find? k).isSome := by
  obtain ⟨es, h⟩ := l
  simp only [keys, find?]
  clear h
  induction es with
  | nil => simp
  | cons e rest ih => grind

/-- A ledger contains its keys. -/
theorem contains_iff (l : Ledger κ ν) (k : κ) : l.contains k = true ↔ k ∈ l.keys := by
  rw [mem_keys_iff, contains]

/-- A new key comes last; a known key keeps its place. -/
theorem keys_insert (l : Ledger κ ν) (k : κ) (v : ν) :
    (l.insert k v).keys = if k ∈ l.keys then l.keys else l.keys ++ [k] :=
  keys_write k v l.entries

/-- Writing a key gives it the value and leaves every other key alone. -/
theorem find?_insert (l : Ledger κ ν) (k k' : κ) (v : ν) :
    (l.insert k v).find? k' = if k' = k then some v else l.find? k' := by
  obtain ⟨es, h⟩ := l
  simp only [insert, find?]
  clear h
  induction es with
  | nil => grind [write]
  | cons e rest ih => grind [write]

/-- Writing what is written already changes nothing. -/
theorem insert_eq_self {l : Ledger κ ν} {k : κ} {v : ν} (h : l.find? k = some v) :
    l.insert k v = l := by
  obtain ⟨es, hnodup⟩ := l
  -- the entry that is written over is the one that is there
  have hwrite : write k v es = es := by
    simp only [find?] at h
    clear hnodup
    induction es with
    | nil => simp at h
    | cons e rest ih => grind [write]
  simp only [insert, hwrite]

end Ledger

end UtilityClass
