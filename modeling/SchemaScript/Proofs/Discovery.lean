import Mathlib.Data.List.Lex
import Mathlib.Data.List.Sort
import SchemaScript.Loading
import SchemaScript.Proofs.Distinct
import SchemaScript.Proofs.Patterns
import SchemaScript.Proofs.Searching

/-!
Which documents are found in a directory, and in which order. They are the files that are named like
documents; directories are only looked into, whatever their names. Paths are ordered by their names
and names by the codes of their characters, so that the documents in a directory stand together. No
two paths are equal in this order, so that it leaves no choice, and it does not matter in which
order the entries of the tree come.
-/

namespace SchemaScript

def NameBefore (a b : String) : Prop :=
  List.Lex (fun c d : Char => c.toNat < d.toNat) a.toList b.toList

/-- The first names that differ decide; a path stands before those that it begins. -/
def PathBefore (a b : Location) : Prop := List.Lex NameBefore a b

namespace NameBefore

theorem asymm {a b : String} (before : NameBefore a b) : ¬ NameBefore b a :=
  List.lex_asymm Nat.lt_asymm before

theorem trans {a b c : String} (first : NameBefore a b) (second : NameBefore b c) :
    NameBefore a c :=
  List.lex_trans Nat.lt_trans first second

theorem irrefl (a : String) : ¬ NameBefore a a := fun before => before.asymm before

theorem eq_of_not {a b : String} (first : ¬ NameBefore a b) (second : ¬ NameBefore b a) :
    a = b := by
  have codes : Std.Trichotomous fun c d : Char => c.toNat < d.toNat :=
    ⟨fun c d notLess notMore => Char.toNat_inj.1 (by omega)⟩
  exact String.toList_inj.1 ((List.Lex.trichotomous _).trichotomous _ _ first second)

end NameBefore

namespace PathBefore

theorem asymm {a b : Location} (before : PathBefore a b) : ¬ PathBefore b a :=
  List.lex_asymm NameBefore.asymm before

theorem trans {a b c : Location} (first : PathBefore a b) (second : PathBefore b c) :
    PathBefore a c :=
  List.lex_trans NameBefore.trans first second

theorem irrefl (a : Location) : ¬ PathBefore a a := fun before => before.asymm before

theorem eq_of_not {a b : Location} (first : ¬ PathBefore a b) (second : ¬ PathBefore b a) :
    a = b := by
  have names : Std.Trichotomous NameBefore := ⟨fun _ _ => NameBefore.eq_of_not⟩
  exact (List.Lex.trichotomous NameBefore).trichotomous a b first second

end PathBefore

theorem nameBefore_eq_true_iff {a b : List Char} :
    nameBefore a b = true ↔ List.Lex (fun c d : Char => c.toNat < d.toNat) a b := by
  induction a generalizing b with
  | nil => cases b <;> simp [nameBefore]
  | cons c a ih =>
    cases b with
    | nil => simp [nameBefore]
    | cons d b =>
      by_cases same : c = d
      · simp [nameBefore, same, ih, List.cons_lex_cons_iff]
      · simp [nameBefore, same, List.cons_lex_cons_iff]

theorem pathBefore_eq_true_iff {a b : Location} : pathBefore a b = true ↔ PathBefore a b := by
  induction a generalizing b with
  | nil => cases b <;> simp [pathBefore, PathBefore]
  | cons name a ih =>
    cases b with
    | nil => simp [pathBefore, PathBefore]
    | cons other b =>
      rw [PathBefore, List.cons_lex_cons_iff]
      by_cases same : name = other
      · simp [pathBefore, same, ih, NameBefore.irrefl, PathBefore]
      · simp [pathBefore, same, nameBefore_eq_true_iff, NameBefore]

instance : DecidableRel NameBefore :=
  fun _ _ => decidable_of_iff _ nameBefore_eq_true_iff

instance : DecidableRel PathBefore :=
  fun _ _ => decidable_of_iff _ pathBefore_eq_true_iff

/-- A file that counts as a document. It is named like one, and stands in the directory itself or,
if those below count, in any to which names lead down from there. -/
def FileTree.HasDocument (tree : FileTree) (directory : Location) (recursive : Bool)
    (file : SourceFile) : Prop :=
  ∃ way stem ending, file.path = way ++ [stem ++ ending] ∧ ending ∈ [".yaml", ".yml"] ∧
    tree.Opens directory way ∧ (recursive = true ∨ way = []) ∧
    tree.get? (directory ++ file.path) = some (.file file.content)

/-- What is looked up to find documents: the directories that are listed and all that is named like
a document. -/
def FileTree.LooksUp (tree : FileTree) (directory : Location) (recursive : Bool)
    (path : Location) : Prop :=
  (tree.Opens directory path ∧ (recursive = true ∨ path = [])) ∨
    ∃ way stem ending, path = way ++ [stem ++ ending] ∧ ending ∈ [".yaml", ".yml"] ∧
      tree.Opens directory way ∧ (recursive = true ∨ way = []) ∧
      (tree.get? (directory ++ path)).isSome = true

/-- A directory under a path holds something that is looked up and whose own path is too long. -/
def FileTree.TooDeep (tree : FileTree) (shown : String) (directory : Location)
    (recursive : Bool) : Prop :=
  ∃ path, tree.LooksUp directory recursive path ∧
    FileTree.isTooLong (Path.below shown path) = true

/-- A path that has to be looked up to find the documents of a directory is too long, be it that of
the directory or one below it. -/
def FileTree.Overlong (tree : FileTree) (workplace : Location) (shown : String)
    (recursive : Bool) : Prop :=
  (∃ path, tree.locate workplace shown = .error (.refused .nameTooLong path)) ∨
    ∃ location, tree.locate workplace shown = .ok location ∧ tree.isDirectory location = true ∧
      tree.TooDeep shown location recursive

variable {tree : FileTree} {directory : Location} {recursive : Bool}

theorem sourceFile?_eq_some_iff {path : Location} {file : SourceFile} :
    sourceFile? tree directory path = some file ↔
      file.path = path ∧ tree.get? (directory ++ path) = some (.file file.content) := by
  obtain ⟨filePath, content⟩ := file
  unfold sourceFile?
  split
  · next content found => simp [found, eq_comm]
  · next noFile =>
    constructor
    · intro found
      cases found
    · exact fun found => absurd found.2 (noFile content)

theorem exists_pattern_iff {name : String} :
    (∃ pattern ∈ documentPatterns, Text.globMatches pattern name = true) ↔
      ∃ stem, ∃ ending ∈ [".yaml", ".yml"], name = stem ++ ending := by
  have patterns : documentPatterns = [".yaml", ".yml"].map ("*" ++ ·) := by decide +kernel
  have plain : ∀ ending ∈ [".yaml", ".yml"],
      ending.toList.all Text.Glob.isPlainMark = true := by decide
  rw [patterns]
  constructor
  · rintro ⟨_, listed, matching⟩
    obtain ⟨ending, isEnding, rfl⟩ := List.mem_map.1 listed
    obtain ⟨stem, same⟩ := (Text.globMatches_star_iff (plain ending isEnding)).1 matching
    exact ⟨stem, ending, isEnding, same⟩
  · rintro ⟨stem, ending, isEnding, same⟩
    exact ⟨_, List.mem_map_of_mem isEnding,
      (Text.globMatches_star_iff (plain ending isEnding)).2 ⟨stem, same⟩⟩

theorem exists_glob_iff {path : Location} :
    (∃ pattern ∈ documentPatterns, path ∈ tree.glob directory pattern recursive) ↔
      ∃ way stem ending, path = way ++ [stem ++ ending] ∧ ending ∈ [".yaml", ".yml"] ∧
        tree.Opens directory way ∧ (recursive = true ∨ way = []) ∧
        (tree.get? (directory ++ path)).isSome = true := by
  simp only [FileTree.mem_glob_iff]
  constructor
  · rintro ⟨pattern, listed, way, name, split, opens, deep, accepted, stands⟩
    obtain ⟨stem, ending, isEnding, rfl⟩ := exists_pattern_iff.1 ⟨pattern, listed, accepted⟩
    exact ⟨way, stem, ending, split, isEnding, opens, deep, stands⟩
  · rintro ⟨way, stem, ending, split, isEnding, opens, deep, stands⟩
    obtain ⟨pattern, listed, accepted⟩ := exists_pattern_iff.2 ⟨stem, ending, isEnding, rfl⟩
    exact ⟨pattern, listed, way, _, split, opens, deep, accepted, stands⟩

theorem mem_flatMap_documentPatterns_iff {file : SourceFile} :
    (file ∈ documentPatterns.flatMap fun pattern =>
      (tree.glob directory pattern recursive).filterMap (sourceFile? tree directory)) ↔
        tree.HasDocument directory recursive file := by
  simp only [List.mem_flatMap, List.mem_filterMap, sourceFile?_eq_some_iff]
  constructor
  · rintro ⟨pattern, listed, path, globbed, rfl, stands⟩
    obtain ⟨way, stem, ending, split, isEnding, opens, deep, _⟩ :=
      exists_glob_iff.1 ⟨pattern, listed, globbed⟩
    exact ⟨way, stem, ending, split, isEnding, opens, deep, stands⟩
  · rintro ⟨way, stem, ending, split, isEnding, opens, deep, stands⟩
    have isSome : (tree.get? (directory ++ file.path)).isSome = true := by
      rw [stands]
      rfl
    obtain ⟨pattern, listed, globbed⟩ :=
      exists_glob_iff.2 ⟨way, stem, ending, split, isEnding, opens, deep, isSome⟩
    exact ⟨pattern, listed, file.path, globbed, rfl, stands⟩

namespace FileTree.HasDocument

theorem eq_of_path_eq {a b : SourceFile} (ha : tree.HasDocument directory recursive a)
    (hb : tree.HasDocument directory recursive b) (same : a.path = b.path) : a = b := by
  obtain ⟨_, _, _, _, _, _, _, first⟩ := ha
  obtain ⟨_, _, _, _, _, _, _, second⟩ := hb
  rw [same, second] at first
  cases a
  cases b
  simp_all

theorem not_isDirectory {file : SourceFile} (stands : tree.HasDocument directory recursive file) :
    tree.isDirectory (directory ++ file.path) = false := by
  obtain ⟨_, _, _, _, _, _, _, found⟩ := stands
  simp [FileTree.isDirectory, found]

theorem inside_iff {inner path : Location} (opens : tree.Opens directory inner)
    {content : ByteArray} :
    tree.HasDocument (directory ++ inner) true ⟨path, content⟩ ↔
      tree.HasDocument directory true ⟨inner ++ path, content⟩ := by
  constructor
  · rintro ⟨way, stem, ending, rfl, isEnding, further, _, stands⟩
    refine ⟨inner ++ way, stem, ending, (List.append_assoc ..).symm, isEnding,
      opens_append_iff.2 ⟨opens, further⟩, .inl rfl, ?_⟩
    rwa [List.append_assoc] at stands
  · rintro ⟨way, stem, ending, split, isEnding, through, _, stands⟩
    rcases List.eq_nil_or_concat path with rfl | ⟨front, last, rfl⟩
    · -- Then the file would stand where a directory does.
      have notRoot : inner ≠ [] := by
        rintro rfl
        simp at split
      have isDirectory := opens inner (List.prefix_refl inner) notRoot
      rw [isDirectory_iff, ← List.append_nil inner, stands] at isDirectory
      cases isDirectory
    · rw [List.concat_eq_append, ← List.append_assoc] at split
      obtain ⟨rfl, same⟩ := List.append_inj' split rfl
      refine ⟨front, stem, ending, by rw [List.concat_eq_append, same], isEnding,
        (opens_append_iff.1 through).2, .inl rfl, ?_⟩
      rwa [List.append_assoc]

end FileTree.HasDocument

theorem mem_documentsBelow_iff {file : SourceFile} :
    file ∈ documentsBelow tree directory recursive ↔
      tree.HasDocument directory recursive file := by
  rw [documentsBelow, List.mem_mergeSort, searchDocuments, mem_distinctBy]
  · exact mem_flatMap_documentPatterns_iff
  · intro a ha b hb same
    exact (mem_flatMap_documentPatterns_iff.1 ha).eq_of_path_eq
      (mem_flatMap_documentPatterns_iff.1 hb) same

theorem not_pathBefore_iff {a b : Location} : (!pathBefore b a) = true ↔ ¬ PathBefore b a := by
  rw [Bool.not_eq_true', ← pathBefore_eq_true_iff, Bool.not_eq_true]

theorem nodup_paths_documentsBelow (tree : FileTree) (directory : Location) (recursive : Bool) :
    ((documentsBelow tree directory recursive).map SourceFile.path).Nodup :=
  ((List.mergeSort_perm _ _).map SourceFile.path).nodup_iff.2 (nodup_keys_distinctFrom [] _)

theorem pairwise_documentsBelow (tree : FileTree) (directory : Location) (recursive : Bool) :
    (documentsBelow tree directory recursive).Pairwise fun a b => PathBefore a.path b.path := by
  have ordered : (documentsBelow tree directory recursive).Pairwise fun a b =>
      (!pathBefore b.path a.path) = true := by
    apply List.pairwise_mergeSort
    · intro a b c first second
      rw [not_pathBefore_iff] at first second ⊢
      intro back
      by_cases forth : PathBefore a.path b.path
      · exact second (back.trans forth)
      · exact second (PathBefore.eq_of_not first forth ▸ back)
    · intro a b
      rw [Bool.or_eq_true, not_pathBefore_iff, not_pathBefore_iff]
      exact not_and_or.1 fun both => both.1.asymm both.2
  have distinct := List.pairwise_map.1 (nodup_paths_documentsBelow tree directory recursive)
  refine (ordered.and distinct).imp fun {a b} both => ?_
  by_contra notBefore
  exact both.2 (PathBefore.eq_of_not notBefore (not_pathBefore_iff.1 both.1))

theorem eq_of_mem_iff {files others : List SourceFile}
    (ordered : files.Pairwise fun a b => PathBefore a.path b.path)
    (orderedToo : others.Pairwise fun a b => PathBefore a.path b.path)
    (same : ∀ file, file ∈ files ↔ file ∈ others) : files = others := by
  have : Std.Antisymm fun a b : SourceFile => PathBefore a.path b.path :=
    ⟨fun _ _ before after => absurd after before.asymm⟩
  have : Std.Irrefl fun a b : SourceFile => PathBefore a.path b.path :=
    ⟨fun a => PathBefore.irrefl a.path⟩
  exact ordered.eq_of_mem_iff orderedToo same

theorem documentsBelow_eq {files : List SourceFile}
    (found : files.Perm (searchDocuments tree directory recursive))
    (ordered : files.Pairwise fun a b => PathBefore a.path b.path) :
    documentsBelow tree directory recursive = files :=
  eq_of_mem_iff (pairwise_documentsBelow tree directory recursive) ordered
    fun _ => ((List.mergeSort_perm _ _).trans found.symm).mem_iff

theorem documentsBelow_of_perm {other : FileTree} (same : other.entries.Perm tree.entries) :
    documentsBelow other directory recursive = documentsBelow tree directory recursive := by
  refine eq_of_mem_iff (pairwise_documentsBelow ..) (pairwise_documentsBelow ..) fun file => ?_
  rw [mem_documentsBelow_iff, mem_documentsBelow_iff]
  simp only [FileTree.HasDocument, FileTree.Opens, FileTree.get?_of_perm same,
    FileTree.isDirectory_of_perm same]

theorem exists_lookedUp_iff {path : Location} :
    (∃ pattern ∈ documentPatterns, path ∈ tree.lookedUp directory pattern recursive) ↔
      tree.LooksUp directory recursive path := by
  rw [FileTree.LooksUp, ← exists_glob_iff]
  simp only [FileTree.mem_lookedUp_iff]
  constructor
  · rintro ⟨pattern, listed, isStart | globbed⟩
    · exact .inl isStart
    · exact .inr ⟨pattern, listed, globbed⟩
  · rintro (isStart | ⟨pattern, listed, globbed⟩)
    · exact ⟨"*.yaml", List.mem_cons_self, .inl isStart⟩
    · exact ⟨pattern, listed, .inr globbed⟩

theorem overlong?_eq_none_iff {shown : String} :
    overlong? tree shown directory recursive = none ↔ ¬ tree.TooDeep shown directory recursive := by
  have looked : ∀ path : Location,
      (path ∈ documentPatterns.flatMap fun pattern => tree.lookedUp directory pattern recursive) ↔
        tree.LooksUp directory recursive path := fun path => by
    rw [← exists_lookedUp_iff, List.mem_flatMap]
  simp only [overlong?, List.find?_eq_none, List.forall_mem_map, looked, FileTree.TooDeep,
    not_exists, not_and]

theorem tooDeep_of_perm {other : FileTree} (same : other.entries.Perm tree.entries)
    {shown : String} :
    other.TooDeep shown directory recursive ↔ tree.TooDeep shown directory recursive := by
  simp only [FileTree.TooDeep, FileTree.LooksUp, FileTree.Opens, FileTree.get?_of_perm same,
    FileTree.isDirectory_of_perm same]

section Discover

variable {workplace location : Location} {path : String}
  (found : tree.locate workplace (Path.display path) = .ok location)
  (isDirectory : tree.isDirectory location = true)

include found isDirectory

theorem discover_of_not_tooDeep
    (short : ¬ tree.TooDeep (Path.display path) location recursive) :
    discover tree workplace path recursive = .ok (documentsBelow tree location recursive) := by
  simp only [discover, found, isDirectory, if_true, overlong?_eq_none_iff.2 short]

theorem discover_of_tooDeep (deep : tree.TooDeep (Path.display path) location recursive) :
    ∃ long, discover tree workplace path recursive =
      .error (.refused (.refused .nameTooLong long)) := by
  cases met : overlong? tree (Path.display path) location recursive with
  | none => exact absurd deep (overlong?_eq_none_iff.1 met)
  | some long => exact ⟨long, by simp only [discover, found, isDirectory, if_true, met]⟩

theorem overlong_iff_tooDeep :
    tree.Overlong workplace (Path.display path) recursive ↔
      tree.TooDeep (Path.display path) location recursive := by
  simp [FileTree.Overlong, found, isDirectory]

end Discover

theorem not_overlong {workplace : Location} {path : String} (location : Location)
    (found : tree.locate workplace (Path.display path) = .ok location)
    (isDirectory : tree.isDirectory location = true)
    (short : overlong? tree (Path.display path) location recursive = none) :
    ¬ tree.Overlong workplace (Path.display path) recursive :=
  mt (overlong_iff_tooDeep found isDirectory).1 (overlong?_eq_none_iff.1 short)

theorem discover_cases (tree : FileTree) (workplace : Location) (directory : String)
    (recursive : Bool) :
    (∃ files, discover tree workplace directory recursive = .ok files ∧
      tree.reachesDirectory workplace (Path.display directory) = true ∧
      ¬ tree.Overlong workplace (Path.display directory) recursive) ∨
    (tree.Overlong workplace (Path.display directory) recursive ∧
      ∃ path, discover tree workplace directory recursive =
        .error (.refused (.refused .nameTooLong path))) ∨
    (tree.reachesDirectory workplace (Path.display directory) = false ∧
      ¬ tree.Overlong workplace (Path.display directory) recursive ∧
      discover tree workplace directory recursive =
        .error (.notDirectory (Path.display directory))) := by
  cases looked : tree.locate workplace (Path.display directory) with
  | ok location =>
    cases isDirectory : tree.isDirectory location with
    | true =>
      have reached : tree.reachesDirectory workplace (Path.display directory) = true := by
        simp only [FileTree.reachesDirectory, looked, isDirectory]
      rw [overlong_iff_tooDeep looked isDirectory]
      by_cases deep : tree.TooDeep (Path.display directory) location recursive
      · exact .inr (.inl ⟨deep, discover_of_tooDeep looked isDirectory deep⟩)
      · exact .inl ⟨_, discover_of_not_tooDeep looked isDirectory deep, reached, deep⟩
    | false =>
      refine .inr (.inr ⟨?_, ?_, ?_⟩)
      · simp only [FileTree.reachesDirectory, looked, isDirectory]
      · simp [FileTree.Overlong, looked, isDirectory]
      · simp [discover, looked, isDirectory]
  | error fault =>
    have away : tree.reachesDirectory workplace (Path.display directory) = false := by
      simp only [FileTree.reachesDirectory, looked]
    rw [FileTree.Overlong, looked, away, discover, looked]
    cases fault with
    | nullCharacter => exact .inr (.inr ⟨rfl, by simp, rfl⟩)
    | refused trouble path =>
      cases trouble with
      | nameTooLong => exact .inr (.inl ⟨.inl ⟨path, rfl⟩, path, rfl⟩)
      | missing => exact .inr (.inr ⟨rfl, by simp, rfl⟩)
      | «exists» => exact .inr (.inr ⟨rfl, by simp, rfl⟩)
      | notDirectory => exact .inr (.inr ⟨rfl, by simp, rfl⟩)
      | isDirectory => exact .inr (.inr ⟨rfl, by simp, rfl⟩)

theorem discover_of_overlong {tree : FileTree} {workplace : Location} {directory : String}
    {recursive : Bool} (long : tree.Overlong workplace (Path.display directory) recursive) :
    ∃ path, discover tree workplace directory recursive =
      .error (.refused (.refused .nameTooLong path)) := by
  rcases long with ⟨path, refused⟩ | ⟨location, found, isDirectory, deep⟩
  · exact ⟨path, by simp only [discover, refused]⟩
  · exact discover_of_tooDeep found isDirectory deep

/-- The documents of a directory as a list that leaves nothing open. -/
structure ListsDocuments (tree : FileTree) (directory : Location) (recursive : Bool)
    (files : List SourceFile) : Prop where
  mem_iff (file : SourceFile) : file ∈ files ↔ tree.HasDocument directory recursive file
  once : (files.map SourceFile.path).Nodup
  increasing : files.Pairwise fun a b => PathBefore a.path b.path
  fileOnly (path : Location) (isDirectory : tree.isDirectory (directory ++ path) = true) :
    ∀ file ∈ files, file.path ≠ path
  inside (down : recursive = true) (inner : Location) (opens : tree.Opens directory inner)
    (path : Location) (content : ByteArray) :
    ⟨inner ++ path, content⟩ ∈ files ↔
      ⟨path, content⟩ ∈ documentsBelow tree (directory ++ inner) true

theorem listsDocuments_documentsBelow (tree : FileTree) (directory : Location)
    (recursive : Bool) :
    ListsDocuments tree directory recursive (documentsBelow tree directory recursive) where
  mem_iff _ := mem_documentsBelow_iff
  once := nodup_paths_documentsBelow tree directory recursive
  increasing := pairwise_documentsBelow tree directory recursive
  fileOnly path isDirectory file listed same := by
    have notDirectory := (mem_documentsBelow_iff.1 listed).not_isDirectory
    rw [same, isDirectory] at notDirectory
    cases notDirectory
  inside down inner opens path content := by
    rw [down, mem_documentsBelow_iff, mem_documentsBelow_iff]
    exact (FileTree.HasDocument.inside_iff opens).symm

/-- A directory is searched for exactly the files that are named like documents, in the order of
their paths. In which order the entries of the tree came does not matter. The search is given up
exactly if it comes to a path that is too long to be looked up. -/
theorem discovers_documents {tree : FileTree} {workplace location : Location} {path : String}
    (found : tree.locate workplace (Path.display path) = .ok location)
    (isDirectory : tree.isDirectory location = true) (recursive : Bool) :
    (¬ tree.TooDeep (Path.display path) location recursive →
      ∃ files, discover tree workplace path recursive = .ok files ∧
        ListsDocuments tree location recursive files ∧
        ∀ other : FileTree, other.entries.Perm tree.entries →
          discover other workplace path recursive = .ok files) ∧
    (tree.TooDeep (Path.display path) location recursive →
      ∃ long, discover tree workplace path recursive =
        .error (.refused (.refused .nameTooLong long))) := by
  refine ⟨fun short => ?_, discover_of_tooDeep found isDirectory⟩
  refine ⟨_, discover_of_not_tooDeep found isDirectory short,
    listsDocuments_documentsBelow tree location recursive, fun other same => ?_⟩
  have foundToo : other.locate workplace (Path.display path) = .ok location := by
    rw [← found]
    simp only [FileTree.locate, FileTree.follow_of_perm same]
  have isDirectoryToo : other.isDirectory location = true := by
    rw [FileTree.isDirectory_of_perm same, isDirectory]
  rw [discover_of_not_tooDeep foundToo isDirectoryToo ((not_congr (tooDeep_of_perm same)).2 short),
    documentsBelow_of_perm same]

namespace Sample

def emptyFile (path : Location) : SourceFile := ⟨path, ByteArray.empty⟩

def shelf : FileTree where
  entries := [(["defs"], .directory), (["defs", "a.yml"], .file .empty),
    (["defs", "a.yaml"], .directory), (["defs", "a.yaml", "b.yml"], .file .empty),
    (["defs", "B.YAML"], .file .empty), (["defs", ".yaml"], .file .empty),
    (["defs", "a"], .directory), (["defs", "a", "z.yaml"], .file .empty),
    (["defs", "a", "yaml"], .file .empty)]
  nodup := by decide

def onShelf : List SourceFile :=
  [emptyFile [".yaml"], emptyFile ["a", "z.yaml"], emptyFile ["a.yaml", "b.yml"],
    emptyFile ["a.yml"]]

theorem documentsBelow_shelf : documentsBelow shelf ["defs"] true = onShelf :=
  documentsBelow_eq (by decide +kernel) (by decide)

theorem not_tooDeep_shelf : ¬ shelf.TooDeep (Path.display "defs") ["defs"] true :=
  overlong?_eq_none_iff.1 (by decide +kernel)

theorem discovers_documents_shelf :
    shelf.locate [] (Path.display "defs") = .ok ["defs"] ∧
    shelf.isDirectory ["defs"] = true ∧
    discover shelf [] "defs" true = .ok onShelf ∧
    ¬ onShelf.Pairwise (fun a b => NameBefore a.name b.name) ∧
    ∃ files, discover shelf [] "defs" true = .ok files ∧
      ListsDocuments shelf ["defs"] true files ∧
      ∀ other : FileTree, other.entries.Perm shelf.entries →
        discover other [] "defs" true = .ok files := by
  have found : shelf.locate [] (Path.display "defs") = .ok ["defs"] := by rfl
  have isDirectory : shelf.isDirectory ["defs"] = true := by decide
  refine ⟨found, isDirectory, ?_, by decide,
    (discovers_documents found isDirectory true).1 not_tooDeep_shelf⟩
  rw [discover_of_not_tooDeep found isDirectory not_tooDeep_shelf, documentsBelow_shelf]

end Sample

end SchemaScript
