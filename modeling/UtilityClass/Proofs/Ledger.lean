import Mathlib.Logic.Basic
import UtilityClass.Ledger

/-!
# Growing ledgers

A ledger grows only by keys that are new to it, and they come behind the others in the order in
which they are first written.

## Key results

- `entries_insert_of_not_mem`: a new entry comes last and leaves the others as they are
- `find?_of_entries_append_filter`: what is held once other entries are taken
- `keys_insert_append_newKeys`: writing one key and then the others writes all of them
- `keys_ofList` / `find?_ofList`: each key stands where it was first written, with its last value
-/

namespace UtilityClass.Ledger

variable {κ ν : Type}

/-- A ledger is its entries. -/
theorem eq_of_entries_eq {l l' : Ledger κ ν} (h : l.entries = l'.entries) : l = l' := by
  cases l
  cases l'
  congr

variable [DecidableEq κ]

/-- Ledgers are told apart by their entries. -/
instance [DecidableEq ν] : DecidableEq (Ledger κ ν) := fun l l' =>
  decidable_of_iff (l.entries = l'.entries) ⟨eq_of_entries_eq, congrArg entries⟩

/-- The keys that are new to a ledger, each once, in the order in which they first come. -/
def newKeys (l : Ledger κ ν) (ks : List κ) : List κ := (ks.filter (· ∉ l.keys)).eraseDups

/-- Nothing is found under what is no key. -/
theorem find?_eq_none_iff (l : Ledger κ ν) (k : κ) : l.find? k = none ↔ k ∉ l.keys := by
  rw [mem_keys_iff, Option.not_isSome_iff_eq_none]

/-- Something is found under each key. -/
theorem mem_keys_iff_exists (l : Ledger κ ν) (k : κ) : k ∈ l.keys ↔ ∃ v, l.find? k = some v := by
  rw [mem_keys_iff, Option.isSome_iff_exists]

/-- An entry is found under its key. -/
theorem find?_of_mem_entries {l : Ledger κ ν} {k : κ} {v : ν} (h : (k, v) ∈ l.entries) :
    l.find? k = some v := by
  obtain ⟨es, hnodup⟩ := l
  simp only [find?]
  -- entry by entry up to the one with the key
  induction es with
  | nil => exact absurd h List.not_mem_nil
  | cons e rest ih =>
    obtain ⟨he, hrest⟩ := List.nodup_cons.1 hnodup
    rw [List.lookup_cons]
    rcases List.mem_cons.1 h with rfl | hmem
    · simp
    · -- the first entry is under another key
      have hne : k ≠ e.1 := fun heq => he (heq ▸ List.mem_map.2 ⟨_, hmem, rfl⟩)
      rw [beq_false_of_ne hne]
      exact ih hrest hmem

/-- A new entry comes last and leaves the others as they are. -/
theorem entries_insert_of_not_mem {l : Ledger κ ν} {k : κ} (h : k ∉ l.keys) (v : ν) :
    (l.insert k v).entries = l.entries ++ [(k, v)] := by
  obtain ⟨es, hnodup⟩ := l
  simp only [keys] at h
  simp only [insert]
  clear hnodup
  -- no entry is under the key, so the new one goes behind all
  induction es with
  | nil => rfl
  | cons e rest ih =>
    simp only [List.map_cons, List.mem_cons, not_or] at h
    rw [write, if_neg h.1, ih h.2, List.cons_append]

/-- What a ledger holds is held in one that has more entries behind. -/
theorem find?_of_entries_append {l l' : Ledger κ ν} {more : List (κ × ν)}
    (hentries : l'.entries = l.entries ++ more) {k : κ} {v : ν} (h : l.find? k = some v) :
    l'.find? k = some v := by
  rw [find?] at h ⊢
  rw [hentries, List.lookup_append, h, Option.some_or]

/-- A ledger that has taken the entries of another one under keys of their own holds what it held
    before, and else what the other one holds. -/
theorem find?_of_entries_append_filter {l l' other : Ledger κ ν} {isNew : κ × ν → Bool}
    (hnew : ∀ e, isNew e = true ↔ e.1 ∉ l.keys)
    (hentries : l'.entries = l.entries ++ other.entries.filter isNew) (k : κ) :
    l'.find? k = (l.find? k).or (other.find? k) := by
  rw [find?, hentries, List.lookup_append, ← find?]
  cases hfind : l.find? k with
  | some v => rfl
  | none =>
    rw [Option.none_or, Option.none_or, find?]
    -- what is not held before is looked for in the entries that were taken
    rw [find?_eq_none_iff] at hfind
    -- no entry under the key is left out
    induction other.entries with
    | nil => rfl
    | cons e more ih =>
      by_cases hk : e.1 = k
      · rw [List.filter_cons_of_pos ((hnew e).2 (hk ▸ hfind)), List.lookup_cons, List.lookup_cons]
        simp [hk]
      · rw [List.lookup_cons, beq_false_of_ne (Ne.symm hk), ← ih, List.filter_cons]
        split
        · rw [List.lookup_cons, beq_false_of_ne (Ne.symm hk)]
        · rfl

/-! ## New keys -/

/-- Without keys there are no new ones. -/
theorem newKeys_nil (l : Ledger κ ν) : l.newKeys [] = [] := List.eraseDups_nil

/-- To an empty ledger every key is new. -/
theorem newKeys_empty [inst : BEq κ] [LawfulBEq κ] (ks : List κ) :
    (empty : Ledger κ ν).newKeys ks = ks.eraseDups := by
  -- keys are compared in one way only
  rw [newKeys, List.filter_eq_self.2 (by simp), lawful_beq_subsingleton inst instBEqOfDecidableEq]

/-- A key that is held is not new. -/
theorem newKeys_cons_of_mem {l : Ledger κ ν} {k : κ} (h : k ∈ l.keys) (ks : List κ) :
    l.newKeys (k :: ks) = l.newKeys ks := by
  simp [newKeys, h]

/-- Once a new key is written, it is not new any more. -/
theorem newKeys_cons_of_not_mem {l : Ledger κ ν} {k : κ} (h : k ∉ l.keys) (v : ν) (ks : List κ) :
    l.newKeys (k :: ks) = k :: (l.insert k v).newKeys ks := by
  have hrest : (ks.filter (· ∉ l.keys)).filter (fun b => !b == k) =
      ks.filter (· ∉ (l.insert k v).keys) := by
    rw [List.filter_filter, keys_insert, if_neg h]
    apply List.filter_congr
    intro k' _
    by_cases hk' : k' = k <;> simp [hk']
  rw [newKeys, newKeys, List.filter_cons_of_pos (by simpa using h), List.eraseDups_cons, hrest]

/-- Writing one key and then the others writes all of them. -/
theorem keys_insert_append_newKeys (l : Ledger κ ν) (k : κ) (v : ν) (ks : List κ) :
    (l.insert k v).keys ++ (l.insert k v).newKeys ks = l.keys ++ l.newKeys (k :: ks) := by
  -- a key that is held is not counted twice, and a new one comes in front of the others
  by_cases hk : k ∈ l.keys
  · have hkeys : (l.insert k v).keys = l.keys := by rw [keys_insert, if_pos hk]
    rw [newKeys_cons_of_mem hk, newKeys, newKeys, hkeys]
  · rw [newKeys_cons_of_not_mem hk v, keys_insert, if_neg hk, List.append_assoc,
      List.singleton_append]

/-- The new keys are those that are not held. -/
theorem mem_newKeys_iff (l : Ledger κ ν) (k : κ) (ks : List κ) :
    k ∈ l.newKeys ks ↔ k ∈ ks ∧ k ∉ l.keys := by
  simp [newKeys]

/-! ## Ledgers of pairs -/

/-- One more pair is written behind the others. -/
theorem ofList_concat (pairs : List (κ × ν)) (k : κ) (v : ν) :
    ofList (pairs ++ [(k, v)]) = (ofList pairs).insert k v := List.foldl_append

/-- Writing pairs one by one adds the keys that are new. -/
theorem keys_foldl_insert (l : Ledger κ ν) (pairs : List (κ × ν)) :
    (pairs.foldl (fun l p => l.insert p.1 p.2) l).keys =
      l.keys ++ l.newKeys (pairs.map Prod.fst) := by
  induction pairs generalizing l with
  | nil => rw [List.map_nil, newKeys_nil, List.append_nil]; rfl
  | cons p more ih =>
    rw [List.foldl_cons, ih, keys_insert_append_newKeys, List.map_cons]

/-- Each key stands where it was first written. -/
theorem keys_ofList [BEq κ] [LawfulBEq κ] (pairs : List (κ × ν)) :
    (ofList pairs).keys = (pairs.map Prod.fst).eraseDups := by
  rw [ofList, keys_foldl_insert, keys_empty, List.nil_append, newKeys_empty]

/-- Writing pairs one by one leaves each key with the value that was written last. -/
theorem find?_foldl_insert (l : Ledger κ ν) (pairs : List (κ × ν)) (k : κ) :
    (pairs.foldl (fun l p => l.insert p.1 p.2) l).find? k =
      (pairs.reverse.lookup k).or (l.find? k) := by
  induction pairs generalizing l with
  | nil => rfl
  | cons p more ih =>
    obtain ⟨k', v⟩ := p
    rw [List.foldl_cons, ih, find?_insert, List.reverse_cons, List.lookup_append, Option.or_assoc,
      List.lookup_cons]
    by_cases hk : k = k'
    · simp [hk]
    · simp [hk, beq_false_of_ne hk]

/-- Each key has the value that was written last. -/
theorem find?_ofList [inst : BEq κ] [LawfulBEq κ] (pairs : List (κ × ν)) (k : κ) :
    (ofList pairs).find? k = pairs.reverse.lookup k := by
  -- keys are compared in one way only
  rw [ofList, find?_foldl_insert, find?_empty, Option.or_none,
    lawful_beq_subsingleton inst instBEqOfDecidableEq]

omit [DecidableEq κ] in
/-- What is done to every value is done to the one that is found. -/
theorem lookup_map {ν' : Type} [BEq κ] (f : ν → ν') (pairs : List (κ × ν)) (k : κ) :
    (pairs.map fun p => (p.1, f p.2)).lookup k = (pairs.lookup k).map f := by
  induction pairs with
  | nil => rfl
  | cons p more ih =>
    rw [List.map_cons, List.lookup_cons, List.lookup_cons, ih]
    cases k == p.1 <;> rfl

end UtilityClass.Ledger
