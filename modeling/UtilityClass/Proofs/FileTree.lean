import UtilityClass.FileTree
import UtilityClass.Text.Blank

/-!
# Places in a file tree and the search outwards

Resolving the text of a path leads from a place to a place, that is, to a list of names without dots
behind the root.  The search from a place outwards finds the file in the nearest directory that has
one and that is not cut off by a boundary.

## Key results

- `Path.IsPlace.resolve`: what a path names is a place, whatever dots and slashes the path has
- `FileTree.stumbles_place_iff`: when a walk to a place comes to a name that is too long
- `FileTree.searchOutwards_eq_some_iff`: what the search finds
-/

namespace UtilityClass

/-! ## Places -/

namespace Path

/-- A name that an entry of a directory can have. -/
structure IsName (name : Text) : Prop where
  ne_nil : name ≠ []
  ne_dot : name ≠ ['.']
  ne_dots : name ≠ ['.', '.']
  slash_not_mem : '/' ∉ name

/-- The root, or a place inwards from it: all names are names of entries. -/
def IsPlace (p : Path) : Prop := ∃ names, p = root ++ names ∧ ∀ name ∈ names, IsName name

/-- The root is a place. -/
theorem isPlace_root : IsPlace root := ⟨[], rfl, List.forall_mem_nil _⟩

/-- The name of an entry leads inwards. -/
theorem enter_of_isName {name : Text} (h : IsName name) (here : Path) :
    enter here name = here ++ [name] := by
  rw [enter, if_neg (not_or.2 ⟨h.ne_nil, h.ne_dot⟩), if_neg h.ne_dots]

/-- One more name leads from a place to a place. -/
theorem IsPlace.enter {here : Path} (h : here.IsPlace) {name : Text} (hslash : '/' ∉ name) :
    (here.enter name).IsPlace := by
  obtain ⟨names, rfl, hnames⟩ := h
  by_cases hstay : name = [] ∨ name = ['.']
  · rw [Path.enter, if_pos hstay]
    exact ⟨names, rfl, hnames⟩
  by_cases hdots : name = ['.', '.']
  · rw [Path.enter, if_neg hstay, if_pos hdots]
    split
    · exact isPlace_root
    · next hroot =>
      -- the last name goes, and there is one
      have hne : names ≠ [] := fun hnil => hroot (by rw [hnil, List.append_nil])
      refine ⟨names.dropLast, List.dropLast_append_of_ne_nil hne, ?_⟩
      exact fun n hn => hnames n (List.dropLast_subset names hn)
  · have hname : IsName name :=
      ⟨fun hnil => hstay (.inl hnil), fun hdot => hstay (.inr hdot), hdots, hslash⟩
    rw [enter_of_isName hname]
    refine ⟨names ++ [name], List.append_assoc _ _ _, ?_⟩
    exact List.forall_mem_append.2 ⟨hnames, List.forall_mem_singleton.2 hname⟩

/-- No name in the text of a path has a slash. -/
theorem slash_not_mem_of_mem_names {t name : Text} (h : name ∈ names t) : '/' ∉ name := by
  rw [names, List.splitOn_eq_splitOnP] at h
  intro hslash
  exact absurd (Text.forall_not_of_mem_splitOnP h '/' hslash) (by decide)

/-- The text of a path names a place, whatever dots and slashes it has. -/
theorem IsPlace.resolve {here : Path} (h : here.IsPlace) (t : Text) :
    (here.resolve t).IsPlace := by
  have horigin : (origin here t).IsPlace := by
    rw [origin]
    split
    · exact isPlace_root
    · exact h
  -- the place is kept from name to name
  exact List.foldlRecOn _ _ horigin fun place hplace name hname =>
    hplace.enter (slash_not_mem_of_mem_names hname)

end Path

namespace FileTree

variable {tree : FileTree} {name boundary : Text}

/-! ## Entries -/

/-- A file is no directory. -/
theorem isDirectory_of_isFile {p : Path} (h : tree.isFile p = true) :
    tree.isDirectory p = false := by
  rw [isFile, file?] at h
  rw [isDirectory]
  cases hentry : tree.entry? p with
  | none => rfl
  | some entry =>
    cases entry with
    | file => rfl
    | directory =>
      rw [hentry] at h
      exact nomatch h

/-! ## Names that are too long -/

/-- Along names of entries, a walk stumbles over a name that is too long behind directories only. -/
theorem stumbles_iff {here : Path} {names : List Text} (h : ∀ n ∈ names, Path.IsName n) :
    tree.stumbles here names = true ↔
      ∃ before n, before ++ [n] <+: names ∧ Path.isLongName n = true ∧
        ∀ way, way <+: before → tree.isDirectory (here ++ way) = true := by
  -- with each name the walk goes on from the directory that the name leads to
  induction names generalizing here with
  | nil => simp [stumbles]
  | cons first more ih =>
    obtain ⟨hfirst, hmore⟩ := List.forall_mem_cons.1 h
    rw [stumbles, Path.enter_of_isName hfirst, Bool.and_eq_true, Bool.or_eq_true, ih hmore]
    constructor
    · rintro ⟨hhere, hlong | ⟨before, n, hbefore, hlong, hways⟩⟩
      -- the first name is too long itself, or one behind it is
      · refine ⟨[], first, ⟨more, rfl⟩, hlong, ?_⟩
        intro way hway
        rw [List.prefix_nil.1 hway, List.append_nil]
        exact hhere
      · refine ⟨first :: before, n, List.cons_prefix_cons.2 ⟨rfl, hbefore⟩, hlong, ?_⟩
        intro way hway
        rcases List.prefix_cons_iff.1 hway with rfl | ⟨inner, rfl, hinner⟩
        · rw [List.append_nil]
          exact hhere
        · rw [List.append_cons]
          exact hways inner hinner
    · rintro ⟨before, n, hbefore, hlong, hways⟩
      have hhere : tree.isDirectory here = true := by
        have hnone := hways [] List.nil_prefix
        rwa [List.append_nil] at hnone
      refine ⟨hhere, ?_⟩
      cases before with
      | nil =>
        obtain ⟨rfl, -⟩ := List.cons_prefix_cons.1 hbefore
        exact .inl hlong
      | cons head before =>
        rw [List.cons_append, List.cons_prefix_cons] at hbefore
        obtain ⟨rfl, hbefore⟩ := hbefore
        refine .inr ⟨before, n, hbefore, hlong, ?_⟩
        intro way hway
        rw [← List.append_cons]
        exact hways (head :: way) (List.cons_prefix_cons.2 ⟨rfl, hway⟩)

/-- There are directories up to a name of the place that is too long. -/
def LeadsToLongName (tree : FileTree) (place : Path) : Prop :=
  ∃ outer n, outer ≠ [] ∧ outer ++ [n] <+: place ∧ Path.isLongName n = true ∧
    ∀ d, d ≠ [] → d <+: outer → tree.isDirectory d = true

/-- From the root, a walk to a place stumbles over its first name that is too long. -/
theorem stumbles_place_iff {place : Path} (h : place.IsPlace) :
    tree.stumbles (place.take 1) (place.drop 1) = true ↔
      tree.LeadsToLongName place := by
  obtain ⟨names, rfl, hnames⟩ := h
  show tree.stumbles Path.root names = true ↔ _
  -- a place is the root and names of entries behind it
  rw [stumbles_iff hnames]
  constructor
  · rintro ⟨before, n, hbefore, hlong, hways⟩
    refine ⟨Path.root ++ before, n, List.cons_ne_nil _ _,
      List.cons_prefix_cons.2 ⟨rfl, hbefore⟩, hlong, ?_⟩
    intro d hne hd
    obtain rfl | ⟨way, rfl, hway⟩ := List.prefix_cons_iff.1 hd
    · exact absurd rfl hne
    · exact hways way hway
  · rintro ⟨outer, n, hne, houter, hlong, hdirectory⟩
    obtain ⟨first, before, rfl⟩ := List.exists_cons_of_ne_nil hne
    obtain ⟨rfl, hbefore⟩ := List.cons_prefix_cons.1 houter
    refine ⟨before, n, hbefore, hlong, ?_⟩
    exact fun way hway => hdirectory ([] :: way) (List.cons_ne_nil _ _)
      (List.cons_prefix_cons.2 ⟨rfl, hway⟩)

/-! ## The search outwards -/

/-- The directory `d` is the nearest one around a place, or the place itself, that has a file with
    the name: from the place up to `d`, but not in `d`, there is neither such a file nor a
    boundary. -/
structure IsNearest (tree : FileTree) (name boundary : Text) (place d : Path) : Prop where
  ne_nil : d ≠ []
  around : d <+: place
  isFile : tree.isFile (d ++ [name]) = true
  first : ∀ e, d <+: e → e <+: place → e ≠ d →
    tree.isFile (e ++ [name]) = false ∧ tree.contains (e ++ [boundary]) = false

/-- There is nothing around no place at all. -/
theorem not_isNearest_nil (d : Path) : ¬ tree.IsNearest name boundary [] d :=
  fun h => h.ne_nil (List.prefix_nil.1 h.around)

/-- The search looks at a place first, and goes on to the directory around it only if the place has
    neither the file nor the boundary. -/
theorem isNearest_concat_iff {outer : Path} {n : Text} {d : Path} :
    tree.IsNearest name boundary (outer ++ [n]) d ↔
      (d = outer ++ [n] ∧ tree.isFile (d ++ [name]) = true) ∨
      (tree.isFile (outer ++ [n] ++ [name]) = false ∧
        tree.contains (outer ++ [n] ++ [boundary]) = false ∧
        tree.IsNearest name boundary outer d) := by
  constructor
  · intro h
    -- the nearest directory is the place itself or around the one that the place is in
    rcases List.prefix_concat_iff.1 h.around with rfl | houter
    · exact .inl ⟨rfl, h.isFile⟩
    · have hne : outer ++ [n] ≠ d := by
        rintro rfl
        exact absurd houter.length_le (by simp)
      obtain ⟨hfile, hboundary⟩ := h.first _ h.around (List.prefix_refl _) hne
      refine .inr ⟨hfile, hboundary, h.ne_nil, houter, h.isFile, ?_⟩
      exact fun e hd he => h.first e hd (he.trans (List.prefix_append outer [n]))
  · rintro (⟨rfl, hfile⟩ | ⟨hfile, hboundary, h⟩)
    · refine ⟨List.append_ne_nil_of_right_ne_nil _ (List.cons_ne_nil _ _), List.prefix_refl _,
        hfile, ?_⟩
      exact fun e hd he hne => absurd (he.eq_of_length_le hd.length_le) hne
    · refine ⟨h.ne_nil, h.around.trans (List.prefix_append outer [n]), h.isFile, ?_⟩
      intro e hd he hne
      rcases List.prefix_concat_iff.1 he with rfl | houter
      · exact ⟨hfile, hboundary⟩
      · exact h.first e hd houter hne

/-- No boundary comes between a place and the nearest directory. -/
theorem IsNearest.prefix_of_boundary {place d e : Path} (h : tree.IsNearest name boundary place d)
    (he : e <+: place) (hboundary : tree.contains (e ++ [boundary]) = true) : e <+: d := by
  rcases List.prefix_or_prefix_of_prefix he h.around with hwithin | hd
  · exact hwithin
  · -- further inwards there is no boundary
    by_cases heq : e = d
    · exact heq ▸ List.prefix_refl e
    · rw [(h.first e hd he heq).2] at hboundary
      exact nomatch hboundary

/-- The search finds the file in the nearest directory that has one, and nothing else. -/
theorem searchOutwards_eq_some_iff {inner : List Text} {p : Path} :
    tree.searchOutwards name boundary inner = some p ↔
      ∃ d, tree.IsNearest name boundary inner.reverse d ∧ p = d ++ [name] := by
  -- from the place outwards, directory by directory
  induction inner with
  | nil =>
    rw [searchOutwards, List.reverse_nil]
    exact iff_of_false nofun fun ⟨d, hd, _⟩ => not_isNearest_nil d hd
  | cons n outer ih =>
    simp only [searchOutwards, List.reverse_cons, isNearest_concat_iff]
    cases hfile : tree.isFile (outer.reverse ++ [n] ++ [name]) with
    | true =>
      rw [if_pos rfl, Option.some.injEq]
      constructor
      · rintro rfl
        exact ⟨_, .inl ⟨rfl, hfile⟩, rfl⟩
      · rintro ⟨d, ⟨rfl, -⟩ | ⟨hnone, -⟩, rfl⟩
        · rfl
        · exact nomatch hnone
    | false =>
      rw [if_neg Bool.false_ne_true]
      -- the place itself is not the nearest directory
      have hplace (d : Path) : ¬ (d = outer.reverse ++ [n] ∧ tree.isFile (d ++ [name]) = true) := by
        rintro ⟨rfl, hd⟩
        exact nomatch hfile.symm.trans hd
      cases hboundary : tree.contains (outer.reverse ++ [n] ++ [boundary]) with
      | true =>
        rw [if_pos rfl]
        refine iff_of_false nofun ?_
        rintro ⟨d, hd | ⟨-, hnone, -⟩, -⟩
        · exact hplace d hd
        · exact nomatch hnone
      | false =>
        rw [if_neg Bool.false_ne_true, ih]
        refine exists_congr fun d => and_congr_left fun _ => ?_
        exact ⟨fun h => .inr ⟨rfl, rfl, h⟩, fun h => (h.resolve_left (hplace d)).2.2⟩

end FileTree

end UtilityClass
