import SchemaScript.Proofs.Outcome

/-!
When there are definitions. Settings lead to definitions exactly if their directory is there, no
path in it is too long for the search, and every document in it loads; then they are what the
documents hold, in the order of the documents.
-/

namespace SchemaScript

/-- Whether or not the first failure stops the reading, a document that does not load is met. -/
theorem exists_failed_attempt (failFast : Bool) {files : List SourceFile}
    (faulty : ¬ ∀ file ∈ files, file.Loads) :
    ∃ attempt ∈ attempts failFast files, ∃ fault, attempt.result = .error fault := by
  induction files with
  | nil => simp at faulty
  | cons file rest ih =>
    cases read : readDocument file.content with
    | error fault =>
      refine ⟨file.attempt, ?_, fault, read⟩
      rw [attempts]
      split
      · exact List.mem_singleton_self _
      · exact List.mem_cons_self
    | ok collection? =>
      have goesOn : file.attempt.isLast failFast = false := by
        simp only [Attempt.isLast, SourceFile.attempt, read]
      have later : ¬ ∀ other ∈ rest, other.Loads := fun loads =>
        faulty (List.forall_mem_cons.2 ⟨⟨collection?, read⟩, loads⟩)
      obtain ⟨attempt, made, failed⟩ := ih later
      refine ⟨attempt, ?_, failed⟩
      rw [attempts, goesOn]
      exact List.mem_cons_of_mem _ made

theorem SourceFile.Loads.noted {file : SourceFile} (loads : file.Loads) : file.Noted := by
  obtain ⟨collection?, read⟩ := loads
  exact fun fault failed => by cases failed.symm.trans read

section Read

variable {files : List SourceFile} {found : List (Option Collection)}
  (read : (files.map fun file => readDocument file.content) = found.map .ok)

include read

theorem loads_of_read : ∀ file ∈ files, file.Loads := by
  intro file listed
  have result : readDocument file.content ∈ found.map .ok := by
    rw [← read]
    exact List.mem_map_of_mem (f := fun file => readDocument file.content) listed
  obtain ⟨collection?, _, made⟩ := List.mem_map.1 result
  exact ⟨collection?, made.symm⟩

theorem collectionsOf_of_read : collectionsOf files = found.map (·.getD .empty) := by
  induction files generalizing found with
  | nil =>
    obtain rfl := List.map_eq_nil_iff.1 read.symm
    rfl
  | cons file rest ih =>
    obtain ⟨collection?, later, rfl, first, others⟩ := List.map_eq_cons_iff.1 read.symm
    simp only [collectionsOf, List.filterMap_cons, ← first, List.map_cons]
    exact congrArg _ (ih others.symm)

end Read

namespace Loading

theorem definitions_eq_ok_iff {loading : Loading} {collections : List Collection} :
    loading.definitions = .ok collections ↔
      loading.stop? = none ∧ loading.isSuccess = true ∧ loading.collections = collections := by
  unfold definitions
  cases loading.stop? with
  | some stop => simp
  | none => cases loading.isSuccess <;> simp

theorem errors_ne_nil {directory : String} {names : List String} {failFast refused : Bool}
    {files : List SourceFile} (faulty : ¬ ∀ file ∈ files, file.Loads) :
    (mk directory names (SchemaScript.attempts failFast files) refused).errors ≠ [] := by
  obtain ⟨attempt, made, fault, failed⟩ := exists_failed_attempt failFast faulty
  refine List.ne_nil_of_mem (a := ⟨attempt.name, fault⟩) (List.mem_filterMap.2 ⟨attempt, made, ?_⟩)
  rw [failed]

end Loading

namespace Settings

variable {settings : Settings} {tree : FileTree} {workplace : Location}
  {collections : List Collection}

def Staffed (settings : Settings) (files : List SourceFile) : Prop :=
  files ≠ [] → ∀ workers, settings.maxWorkers = some workers → 0 ≤ workers

structure Readable (settings : Settings) (tree : FileTree) (workplace : Location) : Prop where
  given : ∃ path, settings.pathIn = some path
  directory : tree.reachesDirectory workplace settings.directory = true
  short : ¬ settings.TooLong tree workplace
  documents : ∀ file ∈ settings.documents tree workplace, file.Loads
  staffed : settings.Staffed (settings.documents tree workplace)

section Discovered

variable {directory : String} {files : List SourceFile}
  (given : settings.pathIn = some directory)
  (found : discover tree workplace directory (settings.recursive.getD false) = .ok files)

include given found

theorem loading_of_staffed (staffed : settings.Staffed files) :
    settings.loading tree workplace =
      .ok ⟨Path.display directory, files.map (·.name), attempts false files, false⟩ := by
  have staffed : settings.loadOptions.Staffed files := staffed
  rw [loading_eq_of_pathIn given, load_of_staffed found staffed]
  rfl

theorem loading_of_unstaffed (alone : ¬ settings.Staffed files) :
    settings.loading tree workplace =
      .ok ⟨Path.display directory, files.map (·.name), [], true⟩ := by
  have alone : ¬ settings.loadOptions.Staffed files := alone
  rw [loading_eq_of_pathIn given, load_of_unstaffed found alone]
  rfl

end Discovered

theorem definitions_of_loading {loading : Loading}
    (read : settings.loading tree workplace = .ok loading) :
    settings.definitions tree workplace = loading.definitions := by
  rw [definitions, read]
  rfl

theorem definitions_of_discover_error {directory : String} {fault : DiscoveryFault}
    (given : settings.pathIn = some directory)
    (missed : discover tree workplace directory (settings.recursive.getD false) = .error fault) :
    settings.definitions tree workplace = .error (.ofDiscovery fault) := by
  rw [definitions, loading_eq_of_pathIn given, load]
  simp only [loadOptions, missed]
  rfl

theorem Readable.definitions_eq (readable : settings.Readable tree workplace) :
    settings.definitions tree workplace =
      .ok (collectionsOf (settings.documents tree workplace)) := by
  obtain ⟨directory, given⟩ := readable.given
  have reached := readable.directory
  have short := readable.short
  rw [directory_eq_of_pathIn given] at reached
  rw [tooLong_iff_of_pathIn given] at short
  rcases discover_cases tree workplace directory (settings.recursive.getD false) with
    ⟨files, found, _⟩ | ⟨long, _⟩ | ⟨away, _⟩
  · obtain rfl := documents_eq_of_discover given found
    have noted := fun file listed => (readable.documents file listed).noted
    have read : settings.loading tree workplace =
        .ok (.ofFiles directory (settings.documents tree workplace)) := by
      rw [loading_of_staffed given found readable.staffed, attempts_eq_map noted]
      rfl
    rw [definitions_of_loading read]
    refine Loading.definitions_eq_ok_iff.2
      ⟨Loading.stop?_ofFiles noted, ?_, Loading.collections_ofFiles⟩
    simp [Loading.isSuccess, Loading.errors_ofFiles_eq_nil_iff.2 readable.documents]
  · exact absurd long short
  · cases reached.symm.trans away

theorem readable_of_definitions (defined : settings.definitions tree workplace = .ok collections) :
    settings.Readable tree workplace := by
  cases given : settings.pathIn with
  | none =>
    rw [definitions, loading, given] at defined
    cases defined
  | some directory =>
    rcases discover_cases tree workplace directory (settings.recursive.getD false) with
      ⟨files, found, reached, short⟩ | ⟨_, path, missed⟩ | ⟨_, _, missed⟩
    · obtain rfl := documents_eq_of_discover given found
      by_cases staffed : settings.Staffed (settings.documents tree workplace)
      · rw [definitions_of_loading (loading_of_staffed given found staffed)] at defined
        obtain ⟨_, complete, _⟩ := Loading.definitions_eq_ok_iff.1 defined
        rw [Loading.isSuccess, Bool.and_eq_true, List.isEmpty_iff] at complete
        refine ⟨⟨directory, given⟩, ?_, ?_, ?_, staffed⟩
        · rw [directory_eq_of_pathIn given]
          exact reached
        · rw [tooLong_iff_of_pathIn given]
          exact short
        · by_contra faulty
          exact Loading.errors_ne_nil faulty complete.1
      · rw [definitions_of_loading (loading_of_unstaffed given found staffed)] at defined
        cases (Loading.definitions_eq_ok_iff.1 defined).1
    · cases (definitions_of_discover_error given missed).symm.trans defined
    · cases (definitions_of_discover_error given missed).symm.trans defined

/-- Settings lead to definitions exactly if their documents can be read, and then to theirs. -/
theorem definitions_eq_ok_iff :
    settings.definitions tree workplace = .ok collections ↔
      settings.Readable tree workplace ∧
        collectionsOf (settings.documents tree workplace) = collections := by
  constructor
  · intro defined
    have readable := readable_of_definitions defined
    exact ⟨readable, Except.ok.inj (readable.definitions_eq.symm.trans defined)⟩
  · rintro ⟨readable, rfl⟩
    exact readable.definitions_eq

end Settings

end SchemaScript
