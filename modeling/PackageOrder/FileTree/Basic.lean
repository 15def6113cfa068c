/-
PackageOrder.FileTree.Basic — a file system held in memory.

A folder lists its entries by name in increasing order, so that listing and
comparing folders needs no sorting. `Folder.insert` keeps that order, and
`Folder.lookup_insert_self` with `Folder.lookup_insert_of_ne` says what it
does to every name.
-/
import PackageOrder.Path.Basic

namespace PackageOrder

/-- What a name in a folder stands for. -/
inductive Entity where
  | folder (entries : List (String × Entity))
  | file (contents : ByteArray)
  /-- A symbolic link; the target is kept as it was given. -/
  | link (target : String)

instance : Inhabited Entity := ⟨.folder []⟩

/-- The entries of a folder, by name in increasing order. -/
abbrev Folder := List (String × Entity)

namespace Folder

/-- Give a name an entity, in its place in the order of names. -/
def insert : Folder → String → Entity → Folder
  | [], name, entity => [(name, entity)]
  | (key, held) :: rest, name, entity =>
    if key = name then (key, entity) :: rest
    else if name < key then (name, entity) :: (key, held) :: rest
    else (key, held) :: insert rest name entity

/-- Drop a name. -/
def erase (folder : Folder) (name : String) : Folder :=
  folder.filter (·.1 ≠ name)

/-- The names in order. -/
def names (folder : Folder) : List String :=
  folder.map (·.1)

/-- The entity of a name. Without regard to case it is the first one whose
name differs from the given one in the case of ASCII letters only. -/
def child? (folder : Folder) (caseSensitive : Bool) (name : String) : Option Entity :=
  if caseSensitive then folder.lookup name
  else (folder.find? fun (key, _) => sameAsciiCaseless key.toList name.toList).map (·.2)
where
  sameAsciiCaseless : List Char → List Char → Bool
    | [], [] => true
    | a :: as, b :: bs => a.toLower == b.toLower && sameAsciiCaseless as bs
    | _, _ => false

theorem lookup_insert_self (folder : Folder) (name : String) (entity : Entity) :
    (folder.insert name entity).lookup name = some entity := by
  induction folder with
  | nil => simp [insert]
  | cons entry rest ih =>
    obtain ⟨key, held⟩ := entry
    simp only [insert]
    split
    · rename_i h; simp [h]
    · split
      · simp
      · rename_i h _
        have hne : (name == key) = false := by
          simpa [beq_eq_false_iff_ne] using fun e => h e.symm
        simpa [List.lookup_cons, hne] using ih

theorem lookup_insert_of_ne (folder : Folder) {name other : String} (entity : Entity)
    (hne : other ≠ name) : (folder.insert name entity).lookup other = folder.lookup other := by
  have hb : (other == name) = false := by simpa [beq_eq_false_iff_ne] using hne
  induction folder with
  | nil => simp [insert, List.lookup_cons, hb]
  | cons entry rest ih =>
    obtain ⟨key, held⟩ := entry
    simp only [insert]
    split
    · rename_i h
      simp [List.lookup_cons, h, hb]
    · split
      · simp [List.lookup_cons, hb]
      · simp only [List.lookup_cons]
        split
        · rfl
        · exact ih

end Folder

/-- A file system: its root folder, the folder that relative paths start from,
and whether names are told apart by case. -/
structure FileTree where
  root : Folder := []
  workingDir : String := "/"
  caseSensitive : Bool := true

instance : Inhabited FileTree := ⟨⟨[], "/", true⟩⟩

/-- What kind of entity a path leads to. -/
inductive EntityKind where
  | file
  | folder
  | link
deriving Repr, DecidableEq

namespace Entity

/-- The kind of an entity. -/
def kind : Entity → EntityKind
  | folder _ => .folder
  | file _ => .file
  | link _ => .link

end Entity

mutual

/-- How many names one below the other there are under an entity. -/
def Entity.depth : Entity → Nat
  | .folder entries => depthOf entries
  | _ => 0

/-- How many names one below the other there are in a folder. -/
def depthOf : List (String × Entity) → Nat
  | [] => 0
  | (_, entity) :: rest => max (entity.depth + 1) (depthOf rest)

end

mutual

/-- The length of the longest name under an entity. -/
def Entity.longestName : Entity → Nat
  | .folder entries => longestNameOf entries
  | _ => 0

/-- The length of the longest name in a folder or below it. -/
def longestNameOf : List (String × Entity) → Nat
  | [] => 0
  | (name, entity) :: rest => max (max name.length entity.longestName) (longestNameOf rest)

end

namespace FileTree

/-- The names on the way to a path. -/
def namesOf (path : String) : List String :=
  (Path.segments path.toList).map String.ofList

/-- The working directory. -/
def changeDir (tree : FileTree) (path : String) : FileTree :=
  { tree with workingDir := path }

/-- A path that parts lead to from the working directory. -/
def resolve (tree : FileTree) (parts : List String) : String :=
  Path.resolve tree.workingDir parts

end FileTree

end PackageOrder
