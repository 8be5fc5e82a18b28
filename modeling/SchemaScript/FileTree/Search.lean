import SchemaScript.FileTree
import SchemaScript.Number.Numeral
import SchemaScript.Text.Glob

/-!
Searching a tree by shell patterns. A search lists the directories from which it starts one by one
and compares the names it meets with the pattern. What it finds, files and directories alike, it
tells by the path from the directory that is searched.
-/

namespace SchemaScript

def FileEntry.isDirectory : FileEntry → Bool
  | .directory => true
  | .file _ => false

namespace FileTree

def nameIn? (directory location : Location) : Option String :=
  match below? directory location with
  | some [name] => some name
  | _ => none

def listing (tree : FileTree) (directory : Location) : List (String × FileEntry) :=
  tree.entries.filterMap fun entry => (nameIn? directory entry.1).map (·, entry.2)

def subdirectories (tree : FileTree) (directory : Location) : List String :=
  ((tree.listing directory).filter (·.2.isDirectory)).map (·.1)

theorem nameIn?_eq_some_iff {directory location : Location} {name : String} :
    nameIn? directory location = some name ↔ location = directory ++ [name] := by
  simp only [nameIn?, below?]
  constructor
  · intro found
    split at found
    · next path only =>
      split at only
      · next within =>
        simp only [Bool.and_eq_true, List.isPrefixOf_iff_prefix] at within
        obtain ⟨rest, rfl⟩ := within.1
        simp_all
      · cases only
    · cases found
  · rintro rfl
    simp

theorem mem_listing_iff {tree : FileTree} {directory : Location} {name : String}
    {entry : FileEntry} :
    (name, entry) ∈ tree.listing directory ↔ (directory ++ [name], entry) ∈ tree.entries := by
  simp only [listing, List.mem_filterMap, Option.map_eq_some_iff, Prod.mk.injEq]
  constructor
  · rintro ⟨⟨location, _⟩, listed, _, found, rfl, rfl⟩
    obtain rfl := nameIn?_eq_some_iff.1 found
    exact listed
  · exact fun listed => ⟨_, listed, name, nameIn?_eq_some_iff.2 rfl, rfl, rfl⟩

theorem mem_subdirectories_iff {tree : FileTree} {directory : Location} {name : String} :
    name ∈ tree.subdirectories directory ↔
      (directory ++ [name], FileEntry.directory) ∈ tree.entries := by
  rw [← mem_listing_iff]
  simp only [subdirectories, List.mem_map, List.mem_filter]
  constructor
  · rintro ⟨⟨_, entry⟩, ⟨listed, isDirectory⟩, rfl⟩
    cases entry with
    | directory => exact listed
    | file content => cases isDirectory
  · exact fun listed => ⟨_, ⟨listed, rfl⟩, rfl⟩

def depth (tree : FileTree) : Nat := Number.total (tree.entries.map (·.1.length))

theorem length_lt_depth {tree : FileTree} {directory : Location} {name : String}
    (listed : name ∈ tree.subdirectories directory) : directory.length < tree.depth := by
  have bound := Number.le_total_of_mem
    (List.mem_map_of_mem (f := (·.1.length)) (mem_subdirectories_iff.1 listed))
  rwa [List.length_append] at bound

/-- The ways down from a directory to all directories in it, of which it is the first itself. -/
def directoriesBelow (tree : FileTree) (directory : Location) : List Location :=
  [] :: (tree.subdirectories directory).attach.flatMap fun ⟨name, _⟩ =>
    (tree.directoriesBelow (directory ++ [name])).map (name :: ·)
termination_by tree.depth - directory.length
decreasing_by
  have deeper := length_lt_depth ‹_›
  rw [List.length_append, List.length_singleton]
  omega

def starts (tree : FileTree) (directory : Location) (recursive : Bool) : List Location :=
  if recursive then tree.directoriesBelow directory else [[]]

def matching (tree : FileTree) (directory : Location) (pattern : String) (start : Location) :
    List Location :=
  ((tree.listing (directory ++ start)).filter fun entry =>
    Text.globMatches pattern entry.1).map fun entry => start ++ [entry.1]

/-- What has a name of the pattern and stands in a directory or, if the search goes down, in any
directory below it. -/
def glob (tree : FileTree) (directory : Location) (pattern : String) (recursive : Bool) :
    List Location :=
  (tree.starts directory recursive).flatMap (tree.matching directory pattern)

/-- What is looked up to find the files of a pattern, one after the other. Each directory is listed,
and for all that has a name of the pattern it is asked whether it is a file. -/
def lookedUp (tree : FileTree) (directory : Location) (pattern : String) (recursive : Bool) :
    List Location :=
  (tree.starts directory recursive).flatMap fun start =>
    start :: tree.matching directory pattern start

end FileTree

end SchemaScript
