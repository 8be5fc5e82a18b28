import SchemaScript.Generation
import SchemaScript.Proofs.Discovery
import SchemaScript.Proofs.Merge

/-!
What a run loads. If every fault of a document is one that is noted, all documents are read, and
there are definitions exactly if all documents load.
-/

namespace SchemaScript

/-- Whatever is wrong with a document is noted. -/
def SourceFile.Noted (file : SourceFile) : Prop :=
  ∀ fault, readDocument file.content = .error fault → fault.isNoted = true

instance (file : SourceFile) : Decidable file.Noted :=
  match read : readDocument file.content with
  | .ok _ => isTrue fun _ failed => by cases read.symm.trans failed
  | .error found =>
    if noted : found.isNoted = true then
      isTrue fun _ failed => by
        cases read.symm.trans failed
        exact noted
    else isFalse fun always => noted (always found read)

def SourceFile.Loads (file : SourceFile) : Prop :=
  ∃ collection?, readDocument file.content = .ok collection?

/-- What the documents that load hold, in their order. -/
def collectionsOf (files : List SourceFile) : List Collection :=
  files.filterMap fun file =>
    match readDocument file.content with
    | .ok collection? => some (collection?.getD .empty)
    | .error _ => none

theorem SourceFile.Noted.isLast {file : SourceFile} (noted : file.Noted) :
    file.attempt.isLast false = false := by
  unfold Attempt.isLast SourceFile.attempt
  split
  · rfl
  · next fault failed => simp [noted fault failed]

theorem attempts_eq_map {files : List SourceFile} (noted : ∀ file ∈ files, file.Noted) :
    attempts false files = files.map (·.attempt) := by
  induction files with
  | nil => rfl
  | cons file rest ih =>
    rw [attempts, (noted file List.mem_cons_self).isLast,
      ih fun other later => noted other (List.mem_cons_of_mem _ later)]
    rfl

def Loading.ofFiles (directory : String) (files : List SourceFile) : Loading where
  directory := Path.display directory
  files := files.map (·.name)
  attempts := files.map (·.attempt)
  workersFault := false

namespace Loading

variable {directory : String} {files : List SourceFile}

@[simp] theorem collections_ofFiles :
    (ofFiles directory files).collections = collectionsOf files := by
  rw [collections, ofFiles, collectionsOf, List.filterMap_map]
  rfl

@[simp] theorem cancelled_ofFiles : (ofFiles directory files).cancelled = 0 := by
  simp [cancelled, ofFiles]

theorem mem_errors_ofFiles {error : FileError} :
    error ∈ (ofFiles directory files).errors ↔ ∃ file ∈ files,
      error.name = file.name ∧ readDocument file.content = .error error.fault := by
  simp only [errors, ofFiles, List.filterMap_map, List.mem_filterMap, Function.comp_apply,
    SourceFile.attempt]
  constructor
  · rintro ⟨file, listed, made⟩
    split at made
    · cases made
    · next failed =>
      cases made
      exact ⟨file, listed, rfl, failed⟩
  · rintro ⟨file, listed, named, failed⟩
    refine ⟨file, listed, ?_⟩
    rw [failed, ← named]

theorem errors_ofFiles_eq_nil_iff :
    (ofFiles directory files).errors = [] ↔ ∀ file ∈ files, file.Loads := by
  rw [List.eq_nil_iff_forall_not_mem]
  constructor
  · intro none file listed
    cases read : readDocument file.content with
    | ok collection? => exact ⟨collection?, read⟩
    | error fault =>
      exact absurd (mem_errors_ofFiles.2 ⟨file, listed, rfl, read⟩) (none ⟨file.name, fault⟩)
  · intro loads error made
    obtain ⟨file, listed, _, failed⟩ := mem_errors_ofFiles.1 made
    obtain ⟨collection?, read⟩ := loads file listed
    cases failed.symm.trans read

theorem stop?_ofFiles (noted : ∀ file ∈ files, file.Noted) :
    (ofFiles directory files).stop? = none := by
  have found : (ofFiles directory files).errors.find? (fun error => !error.fault.isNoted) =
      none := by
    rw [List.find?_eq_none]
    intro error made
    obtain ⟨file, listed, _, failed⟩ := mem_errors_ofFiles.1 made
    simp [noted file listed _ failed]
  rw [stop?, found]
  rfl

end Loading

def LoadOptions.Staffed (options : LoadOptions) (files : List SourceFile) : Prop :=
  files ≠ [] → ∀ workers, options.workers = some workers → 0 ≤ workers

section Load

variable {tree : FileTree} {workplace : Location} {directory : String} {options : LoadOptions}
  {files : List SourceFile}

theorem LoadOptions.refused_eq_false_iff :
    (!files.isEmpty && options.workers.any (· < 0)) = false ↔ options.Staffed files := by
  unfold Staffed
  cases files with
  | nil => simp
  | cons file rest => cases options.workers <;> simp

theorem load_of_staffed (found : discover tree workplace directory options.recursive = .ok files)
    (staffed : options.Staffed files) :
    load tree workplace directory options = .ok ⟨Path.display directory, files.map (·.name),
      attempts options.failFast files, false⟩ := by
  simp only [load, found, bind, Except.bind, LoadOptions.refused_eq_false_iff.2 staffed]
  rfl

theorem load_of_unstaffed (found : discover tree workplace directory options.recursive = .ok files)
    (alone : ¬ options.Staffed files) :
    load tree workplace directory options =
      .ok ⟨Path.display directory, files.map (·.name), [], true⟩ := by
  have refused : (!files.isEmpty && options.workers.any (· < 0)) = true :=
    Bool.of_not_eq_false (mt LoadOptions.refused_eq_false_iff.1 alone)
  simp only [load, found, bind, Except.bind, refused]
  rfl

theorem load_eq_ofFiles (patient : options.failFast = false)
    (workers : ∀ n, options.workers = some n → 0 ≤ n)
    (found : discover tree workplace directory options.recursive = .ok files)
    (noted : ∀ file ∈ files, file.Noted) :
    load tree workplace directory options = .ok (.ofFiles directory files) := by
  rw [load_of_staffed found fun _ => workers, patient, attempts_eq_map noted]
  rfl

end Load

end SchemaScript
