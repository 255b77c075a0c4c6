import UtilityClass.Text.Utf8

/-!
# File trees

A file tree without links: every path leads to a file, to a directory or nowhere.  A path is the
list of names from the outermost directory inwards; the root of a file system has the empty name.
The text of a path is either walked as an operating system walks it (`FileTree.walk?`: each step
has to start in a directory) or resolved by its names alone (`Path.resolve`).  Neither names nor
texts of paths can be longer than a file system allows (`FileTree.stumbles`).
-/

namespace UtilityClass

/-- The names on the way to a place, outermost first. -/
abbrev Path := List Text

/-- What a path can lead to. -/
inductive Entry where
  | file (bytes : ByteArray)
  | directory

/-- A tree of files and directories. -/
structure FileTree where
  /-- What a path leads to. -/
  entry? : Path → Option Entry

namespace Path

/-- The root of a file system. -/
def root : Path := [[]]

/-- The text of a path. -/
def text (p : Path) : Text := List.intercalate ['/'] p

/-- The names in the text of a path. -/
def names (t : Text) : List Text := t.splitOn '/'

/-- Where the text of a path starts: at the root if it opens with a slash, else right here. -/
def origin (here : Path) (t : Text) : Path := if t.head? = some '/' then root else here

/-- The place that one more name leads to: an empty name and a single dot stay, two dots lead
outwards, but not out of the root. -/
def enter (here : Path) (name : Text) : Path :=
  if name = [] ∨ name = ['.'] then here
  else if name = ['.', '.'] then (if here = root then root else here.dropLast)
  else here ++ [name]

/-- The place that the text of a path names, whether anything is there or not. -/
def resolve (here : Path) (t : Text) : Path := (names t).foldl enter (origin here t)

/-- The text of a path without the names that lead nowhere. -/
def tidy (t : Text) : Text :=
  let kept := (names t).filter fun name => name != [] && name != ['.']
  if t.head? = some '/' then '/' :: text kept
  else if kept = [] then ['.'] else text kept

/-- The size of a text in the bytes of its UTF-8 form. -/
def bytes (t : Text) : Nat := (String.ofList t).utf8ByteSize

/-- Whether no file system takes the name: it has more than 255 bytes. -/
def isLongName (name : Text) : Bool := 255 < bytes name

/-- Whether no file system takes the text of a path: it has more than 4095 bytes. -/
def isLongText (t : Text) : Bool := 4095 < bytes t

end Path

namespace FileTree

/-- The tree that holds the given entries; of two entries at one place the first counts. -/
def ofList (entries : List (Path × Entry)) : FileTree := ⟨fun p => entries.lookup p⟩

/-- Whether a directory is at the place. -/
def isDirectory (tree : FileTree) (p : Path) : Bool :=
  match tree.entry? p with
  | some .directory => true
  | _ => false

/-- The bytes of the file at the place, if one is there. -/
def file? (tree : FileTree) (p : Path) : Option ByteArray :=
  match tree.entry? p with
  | some (.file bytes) => some bytes
  | _ => none

/-- Whether a file is at the place. -/
def isFile (tree : FileTree) (p : Path) : Bool := (tree.file? p).isSome

/-- Whether anything is at the place. -/
def contains (tree : FileTree) (p : Path) : Bool := (tree.entry? p).isSome

/-- The place that names lead to, step by step; every step has to start in a directory. -/
def walk? (tree : FileTree) (here : Path) : List Text → Option Path
  | [] => some here
  | name :: more =>
    if tree.isDirectory here then tree.walk? (Path.enter here name) more else none

/-- Whether a walk comes to a name that is too long, in a directory where it would be looked up. -/
def stumbles (tree : FileTree) (here : Path) : List Text → Bool
  | [] => false
  | name :: more =>
    tree.isDirectory here && (Path.isLongName name || tree.stumbles (Path.enter here name) more)

/-- The bytes of the file that the text of a path leads to. -/
def fileAt? (tree : FileTree) (here : Path) (t : Text) : Option ByteArray :=
  (tree.walk? (Path.origin here t) (Path.names t)).bind tree.file?

/-- The file `name` in the innermost of the directories that has one, from the directory with the
given names (innermost first) outwards; the directory with an entry `boundary` is the last one, and
so is the outermost one. -/
def searchOutwards (tree : FileTree) (name boundary : Text) : List Text → Option Path
  | [] => none
  | innermost :: outer =>
    let here := (innermost :: outer).reverse
    if tree.isFile (here ++ [name]) then some (here ++ [name])
    else if tree.contains (here ++ [boundary]) then none
    else tree.searchOutwards name boundary outer

end FileTree

end UtilityClass
