import Ancestry.Object.Tree

/-!
# Snapshots of files

A snapshot is files with their paths. Its objects are the files, a tree for each
directory, and the tree of the whole. A directory takes the place of a file of the same
name, and a later file that of an earlier one.
-/

namespace Ancestry.Snapshot

/-- Files by their paths. -/
abbrev Files := List (List Char × Bytes)

/-- Files without a slash in their paths, by name. -/
def flat (files : Files) : List (String × Object) :=
  files.filterMap fun (path, bytes) =>
    match Pieces.cutFirst '/' path with
    | (name, none) => some (String.ofList name, ⟨.blob, bytes⟩)
    | (_, some _) => none

/-- Files of each directory, with their paths in it. -/
def nested (files : Files) : Std.TreeMap String Files :=
  files.foldl
    (fun directories (path, bytes) =>
      match Pieces.cutFirst '/' path with
      | (_, none) => directories
      | (name, some rest) =>
        directories.insert (String.ofList name)
          (directories.getD (String.ofList name) [] ++ [(rest, bytes)]))
    ∅

/-- The entry of an object. -/
def entryOf (object : Object) : TreeEntry :=
  ⟨object.id, if object.kind = .tree then .directory else .regular⟩

/-- The objects below the root of a snapshot and its entries, where directories nest at
most `most` deep. -/
def build : (most : Nat) → Files → List Object × TreeEntries
  | 0, _ => ([], ∅)
  | most + 1, files =>
    let leaves := flat files
    let directories := (nested files).toList.map fun (name, inner) =>
      match build most inner with
      | (objects, entries) => (name, objects, Tree.toObject entries)
    let children := leaves ++ directories.map fun (name, _, tree) => (name, tree)
    (directories.flatMap (fun (_, objects, _) => objects) ++ children.map (·.2),
      children.foldl (fun entries (name, object) => entries.insert name (entryOf object)) ∅)

/-- The objects of a snapshot, its tree last. Directories do not nest deeper than the
characters of all paths. -/
def objects (files : List (String × Bytes)) : List Object :=
  let files := files.map fun (path, bytes) => (path.toList, bytes)
  match build ((files.flatMap fun (path, _) => path).length + 1) files with
  | (below, entries) => below ++ [Tree.toObject entries]

end Ancestry.Snapshot
