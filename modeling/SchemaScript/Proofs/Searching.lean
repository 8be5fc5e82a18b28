import Mathlib.Data.List.Nodup
import SchemaScript.FileTree.Search
import SchemaScript.Proofs.Ways

/-!
What a search finds. A tree is a list of entries with one for each location, so to be listed is to
be found there. A search that goes down comes to a directory exactly if all names on the way lead to
directories; how these are named does not matter.
-/

namespace SchemaScript.FileTree

variable {tree : FileTree} {directory : Location}

theorem eq_of_location_eq {a b : Location × FileEntry} (ha : a ∈ tree.entries)
    (hb : b ∈ tree.entries) (same : a.1 = b.1) : a = b :=
  List.inj_on_of_nodup_map tree.nodup ha hb same

theorem get?_eq_some_iff {location : Location} (below : location ≠ []) {entry : FileEntry} :
    tree.get? location = some entry ↔ (location, entry) ∈ tree.entries := by
  have notRoot : ¬ location.isEmpty := by simpa using below
  rw [get?, if_neg notRoot, Option.map_eq_some_iff]
  constructor
  · rintro ⟨⟨_, _⟩, found, rfl⟩
    have same := List.find?_some found
    obtain rfl := beq_iff_eq.1 same
    exact List.mem_of_find?_eq_some found
  · intro listed
    cases found : tree.entries.find? fun entry => entry.1 == location with
    | none =>
      have absent := List.find?_eq_none.1 found _ listed
      simp at absent
    | some other =>
      have key := List.find?_some found
      have same := eq_of_location_eq (List.mem_of_find?_eq_some found) listed (beq_iff_eq.1 key)
      exact ⟨other, rfl, by rw [same]⟩

theorem get?_of_perm {other : FileTree} (same : other.entries.Perm tree.entries)
    (location : Location) : other.get? location = tree.get? location := by
  by_cases root : location = []
  · rw [root]
    rfl
  · ext entry
    rw [get?_eq_some_iff root, get?_eq_some_iff root, same.mem_iff]

theorem isDirectory_of_perm {other : FileTree} (same : other.entries.Perm tree.entries)
    (location : Location) : other.isDirectory location = tree.isDirectory location := by
  rw [isDirectory, isDirectory, get?_of_perm same]

theorem follow_of_perm {other : FileTree} (same : other.entries.Perm tree.entries)
    (location : Location) (names : List String) :
    other.follow location names = tree.follow location names := by
  induction names generalizing location with
  | nil => rfl
  | cons name names ih =>
    simp only [follow, isDirectory_of_perm same, get?_of_perm same, ih]

theorem mem_listing_iff_get? {name : String} {entry : FileEntry} :
    (name, entry) ∈ tree.listing directory ↔ tree.get? (directory ++ [name]) = some entry := by
  rw [mem_listing_iff, get?_eq_some_iff (by simp)]

theorem mem_subdirectories_iff_isDirectory {name : String} :
    name ∈ tree.subdirectories directory ↔ tree.isDirectory (directory ++ [name]) = true := by
  rw [mem_subdirectories_iff, isDirectory_iff, get?_eq_some_iff (by simp)]

/-- All names on the way down from a directory lead to directories. -/
def Opens (tree : FileTree) (directory way : Location) : Prop :=
  ∀ front, front <+: way → front ≠ [] → tree.isDirectory (directory ++ front) = true

theorem opens_nil : tree.Opens directory [] :=
  fun _ first notEmpty => absurd (List.prefix_nil.1 first) notEmpty

theorem opens_cons_iff {name : String} {way : Location} :
    tree.Opens directory (name :: way) ↔
      tree.isDirectory (directory ++ [name]) = true ∧ tree.Opens (directory ++ [name]) way := by
  constructor
  · intro opens
    refine ⟨opens [name] ⟨way, rfl⟩ (by simp), fun front first _ => ?_⟩
    have further := opens (name :: front) ((List.prefix_cons_inj name).2 first) (by simp)
    rwa [List.append_cons] at further
  · rintro ⟨isDirectory, opens⟩ front first notEmpty
    obtain ⟨next, front, rfl⟩ := List.exists_cons_of_ne_nil notEmpty
    obtain ⟨rfl, within⟩ := List.cons_prefix_cons.1 first
    by_cases empty : front = []
    · rwa [empty]
    · rw [List.append_cons]
      exact opens front within empty

theorem opens_append_iff {way further : Location} :
    tree.Opens directory (way ++ further) ↔
      tree.Opens directory way ∧ tree.Opens (directory ++ way) further := by
  induction way generalizing directory with
  | nil => simp [opens_nil]
  | cons name way ih =>
    rw [List.cons_append, opens_cons_iff, ih, opens_cons_iff, and_assoc, List.append_assoc]
    rfl

theorem directoriesBelow_eq (tree : FileTree) (directory : Location) :
    tree.directoriesBelow directory =
      [] :: (tree.subdirectories directory).flatMap fun name =>
        (tree.directoriesBelow (directory ++ [name])).map (name :: ·) := by
  rw [directoriesBelow, List.flatMap_subtype fun _ _ => rfl, List.unattach_attach]

/-- Every directory is come to whose way is open, at any depth. -/
theorem mem_directoriesBelow_iff {way : Location} :
    way ∈ tree.directoriesBelow directory ↔ tree.Opens directory way := by
  induction way generalizing directory with
  | nil =>
    rw [directoriesBelow_eq]
    exact iff_of_true List.mem_cons_self opens_nil
  | cons name way ih =>
    rw [directoriesBelow_eq, opens_cons_iff, ← mem_subdirectories_iff_isDirectory, ← ih]
    simp only [List.mem_cons, List.mem_flatMap, List.mem_map, List.cons.injEq]
    constructor
    · rintro (empty | ⟨_, listed, _, found, rfl, rfl⟩)
      · cases empty
      · exact ⟨listed, found⟩
    · rintro ⟨listed, found⟩
      exact .inr ⟨name, listed, way, found, rfl, rfl⟩

theorem mem_starts_iff {recursive : Bool} {way : Location} :
    way ∈ tree.starts directory recursive ↔
      tree.Opens directory way ∧ (recursive = true ∨ way = []) := by
  unfold starts
  cases recursive with
  | true => simp [mem_directoriesBelow_iff]
  | false =>
    simp only [Bool.false_eq_true, if_false, List.mem_singleton, false_or]
    exact ⟨fun root => ⟨root ▸ opens_nil, root⟩, And.right⟩

theorem mem_matching_iff {pattern : String} {way path : Location} :
    path ∈ tree.matching directory pattern way ↔
      ∃ name, path = way ++ [name] ∧ Text.globMatches pattern name = true ∧
        (tree.get? (directory ++ path)).isSome = true := by
  simp only [matching, List.mem_map, List.mem_filter, Prod.exists, mem_listing_iff_get?,
    Option.isSome_iff_exists, List.append_assoc]
  constructor
  · rintro ⟨name, entry, ⟨found, accepted⟩, rfl⟩
    exact ⟨name, rfl, accepted, entry, found⟩
  · rintro ⟨name, rfl, accepted, entry, found⟩
    exact ⟨name, entry, ⟨found, accepted⟩, rfl⟩

theorem mem_glob_iff {pattern : String} {recursive : Bool} {path : Location} :
    path ∈ tree.glob directory pattern recursive ↔
      ∃ way name, path = way ++ [name] ∧ tree.Opens directory way ∧
        (recursive = true ∨ way = []) ∧ Text.globMatches pattern name = true ∧
        (tree.get? (directory ++ path)).isSome = true := by
  simp only [glob, List.mem_flatMap, mem_starts_iff, mem_matching_iff]
  constructor
  · rintro ⟨way, ⟨opens, deep⟩, name, split, found⟩
    exact ⟨way, name, split, opens, deep, found⟩
  · rintro ⟨way, name, split, opens, deep, found⟩
    exact ⟨way, ⟨opens, deep⟩, name, split, found⟩

theorem mem_lookedUp_iff {pattern : String} {recursive : Bool} {path : Location} :
    path ∈ tree.lookedUp directory pattern recursive ↔
      (tree.Opens directory path ∧ (recursive = true ∨ path = [])) ∨
        path ∈ tree.glob directory pattern recursive := by
  simp only [lookedUp, glob, List.mem_flatMap, List.mem_cons, ← mem_starts_iff]
  constructor
  · rintro ⟨start, isStart, rfl | found⟩
    · exact .inl isStart
    · exact .inr ⟨start, isStart, found⟩
  · rintro (isStart | ⟨start, isStart, found⟩)
    · exact ⟨path, isStart, .inl rfl⟩
    · exact ⟨start, isStart, .inr found⟩

end SchemaScript.FileTree
