import UtilityClass.Environment.Load
import UtilityClass.Proofs.FileTree

/-!
# The search for an environment file

The search starts at the place that the text of a path names.  If the place can be looked up, the
search finds the environment file that is nearest to it within the boundary; a place that cannot be
looked up is refused.

## Key results

- `search_nearest`: what is found from a place, and which places are refused
- `search_refused`: a place can be refused where there is nothing to find
-/

namespace UtilityClass.EnvFile

/-- An environment file at the place cannot be looked up: its path is too long, or there are
    directories up to a name that is. -/
def IsTooLong (tree : FileTree) (place : Path) : Prop :=
  Path.isLongText (place ++ [fileName]).text = true ∨ tree.LeadsToLongName place

/-- The directory is the nearest one with an environment file within the boundary. -/
abbrev IsNearest (tree : FileTree) (place d : Path) : Prop :=
  tree.IsNearest fileName boundaryName place d

variable {tree : FileTree} {here place : Path} {start : Text}

/-! ## Outcomes -/

/-- A start with a NUL character is refused. -/
theorem search_of_nul (h : '\x00' ∈ start) : search tree here start = .error .nulCharacter :=
  if_pos h

/-- A place that is too long is refused with the path of its environment file. -/
theorem search_of_isTooLong (hhere : here.IsPlace) (hnul : '\x00' ∉ start)
    (h : IsTooLong tree (here.resolve start)) :
    search tree here start = .error (.longPath (here.resolve start ++ [fileName]).text) := by
  rw [IsTooLong, ← FileTree.stumbles_place_iff (hhere.resolve start)] at h
  rw [search, if_neg hnul]
  exact if_pos h

/-- From any other place the search goes outwards. -/
theorem search_of_not_isTooLong (hhere : here.IsPlace) (hnul : '\x00' ∉ start)
    (h : ¬ IsTooLong tree (here.resolve start)) :
    search tree here start = .ok (find? tree (here.resolve start)) := by
  rw [IsTooLong, ← FileTree.stumbles_place_iff (hhere.resolve start)] at h
  rw [search, if_neg hnul]
  exact if_neg h

/-- Nothing is found but what the search outwards finds. -/
theorem find?_of_search {p : Path} (hhere : here.IsPlace)
    (h : search tree here start = .ok (some p)) : find? tree (here.resolve start) = some p := by
  by_cases hnul : '\x00' ∈ start
  · exact nomatch (search_of_nul hnul).symm.trans h
  by_cases hlong : IsTooLong tree (here.resolve start)
  · exact nomatch (search_of_isTooLong hhere hnul hlong).symm.trans h
  · exact Except.ok.inj ((search_of_not_isTooLong hhere hnul hlong).symm.trans h)

/-- What is found is the environment file in the nearest directory that has one. -/
theorem find?_eq_some_iff {p : Path} :
    find? tree place = some p ↔ ∃ d, IsNearest tree place d ∧ p = d ++ [fileName] := by
  rw [find?, FileTree.searchOutwards_eq_some_iff, List.reverse_reverse]

/-- Nothing is found exactly if there is no such directory. -/
theorem find?_eq_none_iff : find? tree place = none ↔ ¬ ∃ d, IsNearest tree place d := by
  rw [Option.eq_none_iff_forall_ne_some, not_exists]
  constructor
  · exact fun h d hd => h _ (find?_eq_some_iff.2 ⟨d, hd, rfl⟩)
  · intro h p hp
    obtain ⟨d, hd, -⟩ := find?_eq_some_iff.1 hp
    exact h d hd

/-! ## The search -/

/-- Whatever dots it has, the start names a place.  A start with a NUL character is refused, and so
    is a place that is too long.  From any other place, the search finds the environment file in the
    nearest directory outwards that has one, and nothing exactly if there is no such directory.
    What is found is not a directory, and it is not outside of any boundary around the place. -/
theorem search_nearest (tree : FileTree) {here : Path} (hhere : here.IsPlace) (start : Text) :
    let place := here.resolve start
    let found := search tree here start
    place.IsPlace ∧
    ('\x00' ∈ start → found = .error .nulCharacter) ∧
    ('\x00' ∉ start → IsTooLong tree place →
      found = .error (.longPath (place ++ [fileName]).text)) ∧
    ('\x00' ∉ start → ¬ IsTooLong tree place →
      (∀ p, found = .ok (some p) ↔ ∃ d, IsNearest tree place d ∧ p = d ++ [fileName]) ∧
      (found = .ok none ↔ ¬ ∃ d, IsNearest tree place d)) ∧
    ∀ d, found = .ok (some (d ++ [fileName])) →
      tree.isDirectory (d ++ [fileName]) = false ∧
      ∀ e, e <+: place → tree.contains (e ++ [boundaryName]) = true → e <+: d := by
  intro place found
  refine ⟨hhere.resolve start, search_of_nul, search_of_isTooLong hhere, ?_, ?_⟩
  -- from a place that can be looked up, the search is the one outwards
  · intro hnul hlong
    have hfound : found = .ok (find? tree place) := search_of_not_isTooLong hhere hnul hlong
    rw [hfound]
    constructor
    · intro p
      rw [Except.ok.injEq, find?_eq_some_iff]
    · rw [Except.ok.injEq, find?_eq_none_iff]
  · intro d hd
    -- the directory of a path is read off the path
    obtain ⟨d', hnearest, heq⟩ := find?_eq_some_iff.1 (find?_of_search hhere hd)
    obtain rfl : d = d' := (List.append_inj' heq rfl).1
    exact ⟨FileTree.isDirectory_of_isFile hnearest.isFile,
      fun e he hboundary => hnearest.prefix_of_boundary he hboundary⟩

/-- Two directories, one in the other, under a root.  Both the root and the outer directory have an
    environment file; the outer one is a boundary as well, and in the inner one a directory has the
    name of an environment file. -/
def repository : FileTree := .ofList [
  ([[]], .directory), ([[], fileName], .file .empty),
  ([[], ['r']], .directory), ([[], ['r'], fileName], .file .empty),
  ([[], ['r'], boundaryName], .directory),
  ([[], ['r'], ['s']], .directory), ([[], ['r'], ['s'], fileName], .directory)]

/-- From a place that is not there, in the inner directory, the search finds the file beside the
    boundary. -/
theorem search_nearest_beside_boundary :
    search repository [[], ['r']] "s/../s/./none/".toList = .ok (some [[], ['r'], fileName]) := by
  have hhere : Path.IsPlace [[], ['r']] :=
    ⟨[['r']], rfl, List.forall_mem_singleton.2 ⟨by decide, by decide, by decide, by decide⟩⟩
  have hplace : Path.resolve [[], ['r']] "s/../s/./none/".toList =
      [[], ['r'], ['s'], "none".toList] := by decide +kernel
  -- all names are short, and so is their text
  have hlong : ¬ IsTooLong repository [[], ['r'], ['s'], "none".toList] := by
    rintro (htext | ⟨outer, n, -, houter, hname, -⟩)
    · exact absurd htext (by decide +kernel)
    · have hmem : n ∈ [[], ['r'], ['s'], "none".toList] :=
        houter.subset (List.mem_append_right _ List.mem_cons_self)
      have hshort : ∀ n ∈ [[], ['r'], ['s'], "none".toList], Path.isLongName n = false := by
        decide +kernel
      exact Bool.false_ne_true ((hshort n hmem).symm.trans hname)
  have houter : IsNearest repository ([[]] ++ [['r']]) [[], ['r']] :=
    FileTree.isNearest_concat_iff.2 (.inl ⟨rfl, by decide +kernel⟩)
  have hinner : IsNearest repository ([[], ['r']] ++ [['s']]) [[], ['r']] :=
    FileTree.isNearest_concat_iff.2 (.inr ⟨by decide +kernel, by decide +kernel, houter⟩)
  have hnearest : IsNearest repository ([[], ['r'], ['s']] ++ ["none".toList]) [[], ['r']] :=
    FileTree.isNearest_concat_iff.2 (.inr ⟨by decide +kernel, by decide +kernel, hinner⟩)
  obtain ⟨-, -, -, hfound, -⟩ := search_nearest repository hhere "s/../s/./none/".toList
  rw [hplace] at hfound
  exact ((hfound (by decide) hlong).1 _).2 ⟨[[], ['r']], hnearest, rfl⟩

/-- In a tree with nothing in it there is no nearest directory with an environment file, and yet a
    start is refused if it has a NUL character or a name that is too long. -/
theorem search_refused :
    let empty : FileTree := .ofList [(Path.root, .directory)]
    (∀ place d, ¬ IsNearest empty place d) ∧
    search empty Path.root ['a', '\x00', 'b'] = .error .nulCharacter ∧
    ∃ path, search empty Path.root (List.replicate 256 'a') = .error (.longPath path) := by
  intro empty
  have hfile (p : Path) : empty.isFile p = false := by
    show (FileTree.file? _ p).isSome = false
    cases hp : p == Path.root <;>
      simp [FileTree.file?, empty, FileTree.ofList, List.lookup_cons, hp]
  have hplace : Path.root.resolve (List.replicate 256 'a') = [[], List.replicate 256 'a'] := by
    decide +kernel
  -- the root is there, and the name behind it is too long
  have hlong : IsTooLong empty [[], List.replicate 256 'a'] := by
    refine .inr ⟨Path.root, _, List.cons_ne_nil _ _, List.prefix_refl _, by decide +kernel, ?_⟩
    intro d hne hd
    obtain rfl | ⟨way, rfl, hway⟩ := List.prefix_cons_iff.1 hd
    · exact absurd rfl hne
    · rw [List.prefix_nil.1 hway]
      rfl
  refine ⟨?_, search_of_nul (by decide), ?_⟩
  · intro place d h
    exact Bool.false_ne_true ((hfile _).symm.trans h.isFile)
  · exact ⟨_, search_of_isTooLong Path.isPlace_root (by decide +kernel) (hplace ▸ hlong)⟩

end UtilityClass.EnvFile
