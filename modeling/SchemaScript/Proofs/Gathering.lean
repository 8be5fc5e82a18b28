import SchemaScript.Proofs.Documents

/-!
The account of a loading. All documents are asked for at once and their results are gathered in the
order of the documents; the first failure may cancel whatever is still pending. What is gathered,
what is noted and what is cancelled make up all documents.
-/

namespace SchemaScript

inductive Task
  | pending
  | done
  | cancelled
deriving DecidableEq, Repr

def Task.cancel : Task → Task
  | .pending => .cancelled
  | task => task

structure Gathering where
  tasks : List Task
  collections : List Collection
  errors : List FileError
  cancelled : Nat

namespace Gathering

def start (files : List SourceFile) : Gathering := ⟨files.map fun _ => .pending, [], [], 0⟩

/-- The turn of one document. A failure that cancels is asked to cancel all tasks, also those that
are already done. -/
def turn (failFast : Bool) (gathering : Gathering) (entry : SourceFile × Nat) :
    Except DocumentFault Gathering :=
  if gathering.tasks[entry.2]? = some .cancelled then
    .ok { gathering with cancelled := gathering.cancelled + 1 }
  else
    let tasks := gathering.tasks.set entry.2 .done
    match readDocument entry.1.content with
    | .ok collection? =>
      .ok { gathering with
        tasks := tasks
        collections := gathering.collections ++ [collection?.getD .empty] }
    | .error fault =>
      if fault.isNoted then
        .ok { gathering with
          tasks := if failFast then tasks.map Task.cancel else tasks
          errors := gathering.errors ++ [⟨entry.1.name, fault⟩] }
      else .error fault

def ofFiles (failFast : Bool) (files : List SourceFile) : Except DocumentFault Gathering :=
  files.zipIdx.foldlM (turn failFast) (start files)

end Gathering

section Attempts

variable {failFast : Bool} {before after : List SourceFile}

theorem SourceFile.Loads.isLast {file : SourceFile} (loads : file.Loads) (failFast : Bool) :
    file.attempt.isLast failFast = false := by
  obtain ⟨collection?, read⟩ := loads
  simp only [Attempt.isLast, attempt, read]

theorem SourceFile.isLast_of_error {file : SourceFile} {fault : DocumentFault}
    (failed : readDocument file.content = .error fault) :
    file.attempt.isLast failFast = (failFast || !fault.isNoted) := by
  simp only [Attempt.isLast, attempt, failed]

theorem attempts_append_of_goesOn (goesOn : ∀ file ∈ before, file.attempt.isLast failFast = false) :
    attempts failFast (before ++ after) =
      before.map (·.attempt) ++ attempts failFast after := by
  induction before with
  | nil => rfl
  | cons file rest ih =>
    obtain ⟨first, others⟩ := List.forall_mem_cons.1 goesOn
    rw [List.cons_append, attempts, first, ih others]
    rfl

theorem attempts_append_of_isLast (ends : ∃ file ∈ before, file.attempt.isLast failFast = true) :
    attempts failFast (before ++ after) = attempts failFast before := by
  induction before with
  | nil => obtain ⟨_, listed, _⟩ := ends; cases listed
  | cons file rest ih =>
    rw [List.cons_append, attempts, attempts]
    split
    · rfl
    · next goesOn =>
      obtain ⟨other, listed, ends⟩ := ends
      rcases List.mem_cons.1 listed with rfl | later
      · exact absurd ends goesOn
      · rw [ih ⟨other, later, ends⟩]

theorem attempts_of_goesOn (goesOn : ∀ file ∈ before, file.attempt.isLast failFast = false) :
    attempts failFast before = before.map (·.attempt) := by
  have all := @attempts_append_of_goesOn failFast before [] goesOn
  rwa [List.append_nil, attempts, List.append_nil] at all

theorem attempts_concat_of_goesOn {file : SourceFile}
    (goesOn : ∀ file ∈ before, file.attempt.isLast failFast = false) :
    attempts failFast (before ++ [file]) = attempts failFast before ++ [file.attempt] := by
  rw [attempts_append_of_goesOn goesOn, attempts_of_goesOn goesOn, attempts, attempts, ite_self]

theorem length_attempts_le (failFast : Bool) (files : List SourceFile) :
    (attempts failFast files).length ≤ files.length := by
  induction files with
  | nil => exact Nat.le_refl 0
  | cons file rest ih =>
    rw [attempts]
    split
    · simp
    · simpa using ih

end Attempts

/-- A document that is read, if nothing before it ends the loading. -/
def Met (failFast : Bool) (files : List SourceFile) (file : SourceFile) : Prop :=
  ∃ before after, files = before ++ file :: after ∧
    (failFast = true → ∀ other ∈ before, other.Loads)

def Attempt.Noted (attempt : Attempt) : Prop :=
  ∀ fault, attempt.result = .error fault → fault.isNoted = true

section Met

variable {failFast : Bool} {files : List SourceFile} {file other : SourceFile}

theorem Met.mem (met : Met failFast files file) : file ∈ files := by
  obtain ⟨before, after, rfl, _⟩ := met
  exact List.mem_append_right _ List.mem_cons_self

theorem met_of_mem (listed : file ∈ files) : Met false files file := by
  obtain ⟨before, after, rfl⟩ := List.append_of_mem listed
  exact ⟨before, after, rfl, nofun⟩

theorem met_cons_iff :
    Met failFast (file :: files) other ↔
      other = file ∨ (failFast = true → file.Loads) ∧ Met failFast files other := by
  constructor
  · rintro ⟨before, after, whole, loads⟩
    cases before with
    | nil =>
      cases whole
      exact .inl rfl
    | cons first rest =>
      cases whole
      exact .inr ⟨fun fast => loads fast _ List.mem_cons_self,
        rest, after, rfl, fun fast later => loads fast later ∘ List.mem_cons_of_mem _⟩
  · rintro (rfl | ⟨first, before, after, rfl, loads⟩)
    · exact ⟨[], files, rfl, nofun⟩
    · exact ⟨file :: before, after, rfl, fun fast =>
        List.forall_mem_cons.2 ⟨first fast, loads fast⟩⟩

theorem SourceFile.loads_of_isLast_eq_false (goesOn : file.attempt.isLast failFast = false)
    (fast : failFast = true) : file.Loads := by
  cases read : readDocument file.content with
  | ok collection? => exact ⟨collection?, read⟩
  | error fault =>
    rw [isLast_of_error read, fast, Bool.true_or] at goesOn
    cases goesOn

theorem SourceFile.Noted.eq_true_of_isLast (noted : file.Noted)
    (ends : file.attempt.isLast failFast = true) : failFast = true ∧ ¬ file.Loads := by
  constructor
  · cases failFast with
    | true => rfl
    | false => rw [noted.isLast] at ends; cases ends
  · intro loads
    rw [loads.isLast] at ends
    cases ends

theorem attempts_noted_iff :
    (∀ attempt ∈ attempts failFast files, attempt.Noted) ↔
      ∀ file, Met failFast files file → file.Noted := by
  induction files with
  | nil => exact iff_of_true nofun fun file met => nomatch met.mem
  | cons file rest ih =>
    have first : file.attempt.Noted ↔ file.Noted := .rfl
    simp only [met_cons_iff, forall_eq_or_imp, attempts]
    split
    · next ends =>
      rw [List.forall_mem_singleton, first]
      refine ⟨fun noted => ⟨noted, ?_⟩, And.left⟩
      rintro other ⟨goesOn, _⟩
      obtain ⟨fast, fails⟩ := noted.eq_true_of_isLast ends
      exact absurd (goesOn fast) fails
    · next goesOn =>
      have loads := file.loads_of_isLast_eq_false (Bool.eq_false_iff.2 goesOn)
      rw [List.forall_mem_cons, first, ih]
      simp only [and_congr_right_iff]
      exact fun _ => forall_congr' fun other =>
        ⟨fun noted met => noted met.2, fun noted met => noted ⟨loads, met⟩⟩

end Met

def errorsOf (files : List SourceFile) : List FileError :=
  files.filterMap fun file =>
    match readDocument file.content with
    | .ok _ => none
    | .error fault => some ⟨file.name, fault⟩

namespace Loading

def upTo (failFast : Bool) (directory : String) (files : List SourceFile) : Loading where
  directory := Path.display directory
  files := files.map (·.name)
  attempts := SchemaScript.attempts failFast files
  workersFault := false

variable {failFast : Bool} {directory : String} {files before after : List SourceFile}
  {file : SourceFile}

theorem collections_upTo_of_goesOn (goesOn : ∀ file ∈ files, file.attempt.isLast failFast = false) :
    (upTo failFast directory files).collections = collectionsOf files := by
  rw [collections, upTo, attempts_of_goesOn goesOn, collectionsOf, List.filterMap_map]
  rfl

theorem errors_upTo_of_goesOn (goesOn : ∀ file ∈ files, file.attempt.isLast failFast = false) :
    (upTo failFast directory files).errors = errorsOf files := by
  rw [errors, upTo, attempts_of_goesOn goesOn, errorsOf, List.filterMap_map]
  rfl

theorem cancelled_upTo_of_goesOn (goesOn : ∀ file ∈ files, file.attempt.isLast failFast = false) :
    (upTo failFast directory files).cancelled = 0 := by
  simp [cancelled, upTo, attempts_of_goesOn goesOn]

theorem collections_upTo_concat (goesOn : ∀ file ∈ before, file.attempt.isLast failFast = false) :
    (upTo failFast directory (before ++ [file])).collections =
      (upTo failFast directory before).collections ++ collectionsOf [file] := by
  simp only [collections, upTo, attempts_concat_of_goesOn goesOn, List.filterMap_append]
  rfl

theorem errors_upTo_concat (goesOn : ∀ file ∈ before, file.attempt.isLast failFast = false) :
    (upTo failFast directory (before ++ [file])).errors =
      (upTo failFast directory before).errors ++ errorsOf [file] := by
  simp only [errors, upTo, attempts_concat_of_goesOn goesOn, List.filterMap_append]
  rfl

theorem stop?_eq_none_iff {loading : Loading} (staffed : loading.workersFault = false) :
    loading.stop? = none ↔ ∀ attempt ∈ loading.attempts, attempt.Noted := by
  simp only [stop?, staffed, Bool.false_eq_true, ↓reduceIte, Option.map_eq_none_iff,
    List.find?_eq_none, errors, List.mem_filterMap]
  constructor
  · intro noted attempt made fault failed
    simpa using noted ⟨attempt.name, fault⟩ ⟨attempt, made, by rw [failed]⟩
  · rintro noted error ⟨attempt, made, shown⟩
    split at shown
    · cases shown
    · next fault failed =>
      cases shown
      simpa using noted attempt made fault failed

theorem stop?_upTo (noted : ∀ file ∈ files, file.Noted) :
    (upTo failFast directory files).stop? = none :=
  (stop?_eq_none_iff rfl).2 <| attempts_noted_iff.2 fun file met => noted file met.mem

theorem length_collections_add_length_errors (loading : Loading) :
    loading.collections.length + loading.errors.length = loading.attempts.length := by
  obtain ⟨directory, names, made, refused⟩ := loading
  simp only [collections, errors]
  induction made with
  | nil => rfl
  | cons attempt rest ih =>
    cases result : attempt.result with
    | ok collection? => simp only [List.filterMap_cons, result, List.length_cons]; omega
    | error fault => simp only [List.filterMap_cons, result, List.length_cons]; omega

theorem total_upTo (failFast : Bool) (directory : String) (files : List SourceFile) :
    (upTo failFast directory files).collections.length +
      (upTo failFast directory files).errors.length +
      (upTo failFast directory files).cancelled = files.length := by
  rw [length_collections_add_length_errors, cancelled, upTo, List.length_map]
  exact Nat.add_sub_of_le (length_attempts_le failFast files)

/-- What was loaded, what failed and what was left out, of documents whose faults are all noted. -/
structure Accounts (loading : Loading) (failFast : Bool) (documents : List SourceFile) :
    Prop where
  files : loading.files = documents.map (·.name)
  patient : failFast = false → loading.collections = collectionsOf documents ∧
    loading.errors = errorsOf documents ∧ loading.cancelled = 0
  failing : failFast = true → ∀ before file after fault, documents = before ++ file :: after →
    (∀ other ∈ before, other.Loads) → readDocument file.content = .error fault →
    loading.collections = collectionsOf before ∧ loading.errors = [⟨file.name, fault⟩] ∧
      loading.cancelled = after.length
  faultless : (∀ file ∈ documents, file.Loads) →
    loading.collections = collectionsOf documents ∧ loading.errors = [] ∧ loading.cancelled = 0
  total : loading.collections.length + loading.errors.length + loading.cancelled =
    documents.length
  success : loading.isSuccess = true ↔ ∀ file ∈ documents, file.Loads

theorem errorsOf_eq_nil (loads : ∀ file ∈ files, file.Loads) : errorsOf files = [] := by
  rw [errorsOf, List.filterMap_eq_nil_iff]
  intro file listed
  obtain ⟨collection?, read⟩ := loads file listed
  rw [read]

theorem upTo_of_loads (failFast : Bool) (directory : String) (loads : ∀ file ∈ files, file.Loads) :
    (upTo failFast directory files).collections = collectionsOf files ∧
      (upTo failFast directory files).errors = [] ∧
      (upTo failFast directory files).cancelled = 0 := by
  have goesOn := fun file listed => (loads file listed).isLast failFast
  refine ⟨collections_upTo_of_goesOn goesOn, ?_, cancelled_upTo_of_goesOn goesOn⟩
  rw [errors_upTo_of_goesOn goesOn, errorsOf_eq_nil loads]

theorem upTo_of_failure {fault : DocumentFault} (directory : String)
    (loads : ∀ other ∈ before, other.Loads) (failed : readDocument file.content = .error fault) :
    (upTo true directory (before ++ file :: after)).collections = collectionsOf before ∧
      (upTo true directory (before ++ file :: after)).errors = [⟨file.name, fault⟩] ∧
      (upTo true directory (before ++ file :: after)).cancelled = after.length := by
  have goesOn := fun other listed => (loads other listed).isLast true
  have made : SchemaScript.attempts true (before ++ file :: after) =
      SchemaScript.attempts true (before ++ [file]) := by
    rw [← List.singleton_append, ← List.append_assoc]
    refine attempts_append_of_isLast ⟨file, by simp, ?_⟩
    rw [SourceFile.isLast_of_error failed, Bool.true_or]
  have collected : (upTo true directory (before ++ file :: after)).collections =
      (upTo true directory (before ++ [file])).collections := by
    rw [collections, upTo, made]
    rfl
  have noted : (upTo true directory (before ++ file :: after)).errors =
      (upTo true directory (before ++ [file])).errors := by
    rw [errors, upTo, made]
    rfl
  refine ⟨?_, ?_, ?_⟩
  · rw [collected, collections_upTo_concat goesOn, collections_upTo_of_goesOn goesOn]
    simp [collectionsOf, failed]
  · rw [noted, errors_upTo_concat goesOn, errors_upTo_of_goesOn goesOn, errorsOf_eq_nil loads]
    simp [errorsOf, failed]
  · rw [cancelled, upTo, made, attempts_concat_of_goesOn goesOn, attempts_of_goesOn goesOn]
    simp
    omega

theorem accounts_upTo (directory : String)
    (noted : failFast = false → ∀ file ∈ files, file.Noted) :
    (upTo failFast directory files).Accounts failFast files where
  files := rfl
  patient := by
    rintro rfl
    have goesOn := fun file listed => (noted rfl file listed).isLast
    exact ⟨collections_upTo_of_goesOn goesOn, errors_upTo_of_goesOn goesOn,
      cancelled_upTo_of_goesOn goesOn⟩
  failing := by
    rintro rfl before file after fault rfl loads failed
    exact upTo_of_failure directory loads failed
  faultless := upTo_of_loads failFast directory
  total := total_upTo failFast directory files
  success := by
    constructor
    · intro success
      by_contra faulty
      rw [isSuccess, Bool.and_eq_true, List.isEmpty_iff] at success
      exact errors_ne_nil faulty success.1
    · intro loads
      obtain ⟨_, none, all⟩ := upTo_of_loads failFast directory loads
      simp [isSuccess, none, all]

end Loading

namespace Gathering

variable {failFast : Bool} {directory : String} {before after : List SourceFile}
  {file : SourceFile} {gathering : Gathering}

def ahead (failFast : Bool) (before : List SourceFile) : Task :=
  if before.any (·.attempt.isLast failFast) then .cancelled else .pending

/-- After some documents, with others ahead. -/
structure Stands (failFast : Bool) (directory : String) (before after : List SourceFile)
    (gathering : Gathering) : Prop where
  collections : gathering.collections = (Loading.upTo failFast directory before).collections
  errors : gathering.errors = (Loading.upTo failFast directory before).errors
  cancelled : gathering.cancelled = (Loading.upTo failFast directory before).cancelled
  tasks : gathering.tasks.drop before.length = after.map fun _ => ahead failFast before

theorem stands_start (failFast : Bool) (directory : String) (files : List SourceFile) :
    Stands failFast directory [] files (start files) := ⟨rfl, rfl, rfl, rfl⟩

theorem Stands.task (stands : Stands failFast directory before (file :: after) gathering) :
    gathering.tasks[before.length]? = some (ahead failFast before) := by
  have head := congrArg (·[0]?) stands.tasks
  simpa using head

theorem Stands.drop_tasks (stands : Stands failFast directory before (file :: after) gathering) :
    gathering.tasks.drop (before ++ [file]).length = after.map fun _ => ahead failFast before := by
  have tail := congrArg List.tail stands.tasks
  rw [List.tail_drop] at tail
  simpa using tail

theorem Stands.turn_of_cancelled
    (stands : Stands failFast directory before (file :: after) gathering)
    (ends : before.any (·.attempt.isLast failFast) = true) :
    ∃ next, turn failFast gathering (file, before.length) = .ok next ∧
      Stands failFast directory (before ++ [file]) after next := by
  have made : attempts failFast (before ++ [file]) = attempts failFast before :=
    attempts_append_of_isLast (by simpa using ends)
  have gone : ahead failFast before = .cancelled := if_pos ends
  have still : ahead failFast (before ++ [file]) = .cancelled :=
    if_pos (by rw [List.any_append, ends, Bool.true_or])
  refine ⟨{ gathering with cancelled := gathering.cancelled + 1 }, ?_, ?_, ?_, ?_, ?_⟩
  · rw [turn, stands.task, gone]
    rfl
  · rw [Loading.collections, Loading.upTo, made]
    exact stands.collections
  · rw [Loading.errors, Loading.upTo, made]
    exact stands.errors
  · have few := length_attempts_le failFast before
    simp only [stands.cancelled, Loading.cancelled, Loading.upTo, made, List.length_map,
      List.length_append, List.length_singleton]
    omega
  · rw [stands.drop_tasks, gone, still]

theorem turn_of_read {place : Nat} {collection? : Option Collection}
    (asked : gathering.tasks[place]? ≠ some .cancelled)
    (read : readDocument file.content = .ok collection?) :
    turn failFast gathering (file, place) = .ok { gathering with
      tasks := gathering.tasks.set place .done
      collections := gathering.collections ++ [collection?.getD .empty] } := by
  simp only [turn, asked, read, ↓reduceIte]

theorem turn_of_failed {place : Nat} {fault : DocumentFault}
    (asked : gathering.tasks[place]? ≠ some .cancelled)
    (failed : readDocument file.content = .error fault) (noted : fault.isNoted = true) :
    turn failFast gathering (file, place) = .ok { gathering with
      tasks :=
        if failFast then (gathering.tasks.set place .done).map Task.cancel
        else gathering.tasks.set place .done
      errors := gathering.errors ++ [⟨file.name, fault⟩] } := by
  simp only [turn, asked, failed, noted, ↓reduceIte]

theorem Stands.drop_set (stands : Stands failFast directory before (file :: after) gathering)
    (task : Task) :
    (gathering.tasks.set before.length task).drop (before ++ [file]).length =
      after.map fun _ => ahead failFast before := by
  rw [List.drop_set_of_lt (by simp)]
  exact stands.drop_tasks

theorem Stands.turn_of_pending
    (stands : Stands failFast directory before (file :: after) gathering)
    (goesOn : ∀ other ∈ before, other.attempt.isLast failFast = false) (noted : file.Noted) :
    ∃ next, turn failFast gathering (file, before.length) = .ok next ∧
      Stands failFast directory (before ++ [file]) after next := by
  have none : before.any (·.attempt.isLast failFast) = false := by simpa using goesOn
  have waits : ahead failFast before = .pending := if_neg (by simp [none])
  have decides : ahead failFast (before ++ [file]) =
      if file.attempt.isLast failFast then .cancelled else .pending := by
    simp [ahead, none]
  have dropped := stands.drop_set .done
  have cancelled : gathering.cancelled =
      (Loading.upTo failFast directory (before ++ [file])).cancelled := by
    rw [stands.cancelled, Loading.cancelled_upTo_of_goesOn goesOn]
    simp [Loading.cancelled, Loading.upTo, attempts_concat_of_goesOn goesOn,
      attempts_of_goesOn goesOn]
  have asked : gathering.tasks[before.length]? ≠ some .cancelled := by
    rw [stands.task, waits]
    decide
  cases read : readDocument file.content with
  | ok collection? =>
    refine ⟨_, turn_of_read asked read, ?_, ?_, cancelled, ?_⟩
    · rw [Loading.collections_upTo_concat goesOn, ← stands.collections]
      simp [collectionsOf, read]
    · rw [Loading.errors_upTo_concat goesOn, ← stands.errors]
      simp [errorsOf, read]
    · have loads : file.Loads := ⟨collection?, read⟩
      rw [dropped, waits, decides, loads.isLast failFast]
      rfl
  | error fault =>
    have known := noted fault read
    refine ⟨_, turn_of_failed asked read known, ?_, ?_, cancelled, ?_⟩
    · rw [Loading.collections_upTo_concat goesOn, ← stands.collections]
      simp [collectionsOf, read]
    · rw [Loading.errors_upTo_concat goesOn, ← stands.errors]
      simp [errorsOf, read]
    · rw [decides, SourceFile.isLast_of_error read, known]
      cases failFast with
      | false => simpa [waits] using dropped
      | true =>
        simp only [↓reduceIte, ← List.map_drop, dropped, waits, List.map_map]
        rfl

theorem Stands.turn (stands : Stands failFast directory before (file :: after) gathering)
    (noted : file.Noted) :
    ∃ next, turn failFast gathering (file, before.length) = .ok next ∧
      Stands failFast directory (before ++ [file]) after next := by
  cases ends : before.any (·.attempt.isLast failFast) with
  | true => exact stands.turn_of_cancelled ends
  | false => exact stands.turn_of_pending (by simpa using ends) noted

theorem Stands.run (stands : Stands failFast directory before after gathering)
    (noted : ∀ file ∈ after, file.Noted) :
    ∃ last, (after.zipIdx before.length).foldlM (Gathering.turn failFast) gathering = .ok last ∧
      Stands failFast directory (before ++ after) [] last := by
  induction after generalizing before gathering with
  | nil => exact ⟨gathering, rfl, by simpa using stands⟩
  | cons file rest ih =>
    obtain ⟨first, others⟩ := List.forall_mem_cons.1 noted
    obtain ⟨next, turned, stands⟩ := stands.turn first
    obtain ⟨last, ran, stands⟩ := ih stands others
    rw [List.length_append, List.length_singleton] at ran
    refine ⟨last, ?_, by simpa using stands⟩
    rw [List.zipIdx_cons, List.foldlM_cons, turned]
    exact ran

/-- Gathering results comes to what reading one document after the other comes to. -/
theorem exists_ofFiles_eq_ok (failFast : Bool) (directory : String) {files : List SourceFile}
    (noted : ∀ file ∈ files, file.Noted) :
    ∃ last, ofFiles failFast files = .ok last ∧ Stands failFast directory files [] last :=
  (stands_start failFast directory files).run noted

theorem Stands.eq (stands : Stands failFast directory before after gathering) :
    gathering = ⟨gathering.tasks, (Loading.upTo failFast directory before).collections,
      (Loading.upTo failFast directory before).errors,
      (Loading.upTo failFast directory before).cancelled⟩ := by
  rw [← stands.collections, ← stands.errors, ← stands.cancelled]

end Gathering

section Load

variable {tree : FileTree} {workplace : Location} {directory : String} {files : List SourceFile}

/-- Documents that are found are loaded if there is somebody to read them, and all of them are
accounted for. To gather their results one by one comes to the same. -/
theorem accounts_of_load (options : LoadOptions)
    (found : discover tree workplace directory options.recursive = .ok files)
    (noted : ∀ file ∈ files, file.Noted) :
    ∃ loading, load tree workplace directory options = .ok loading ∧
      (loading.stop? = none ↔ options.Staffed files) ∧
      (loading.stop? = none → loading.Accounts options.failFast files ∧
        ∃ tasks, Gathering.ofFiles options.failFast files =
          .ok ⟨tasks, loading.collections, loading.errors, loading.cancelled⟩) := by
  by_cases staffed : options.Staffed files
  · refine ⟨.upTo options.failFast directory files, load_of_staffed found staffed,
      iff_of_true (Loading.stop?_upTo noted) staffed, fun _ => ?_⟩
    obtain ⟨last, gathered, stands⟩ :=
      Gathering.exists_ofFiles_eq_ok options.failFast directory noted
    refine ⟨Loading.accounts_upTo directory fun _ => noted, last.tasks, ?_⟩
    rw [gathered, ← stands.eq]
  · refine ⟨_, load_of_unstaffed found staffed, iff_of_false ?_ staffed, ?_⟩
    · simp [Loading.stop?]
    · simp [Loading.stop?]

end Load

namespace Sample

def threeDocuments : FileTree where
  entries := [(["defs"], .directory), (["defs", "a.yaml"], .file "enums: []\n".toUTF8),
    (["defs", "b.yaml"], .file "- 1\n".toUTF8), (["defs", "c.yaml"], .file "".toUTF8)]
  nodup := by decide

def brokenMiddle : List SourceFile :=
  [⟨["a.yaml"], "enums: []\n".toUTF8⟩, ⟨["b.yaml"], "- 1\n".toUTF8⟩, ⟨["c.yaml"], "".toUTF8⟩]

theorem discover_threeDocuments :
    discover threeDocuments [] "defs" false = .ok brokenMiddle := by
  have found : discover threeDocuments [] "defs" false =
      .ok (documentsBelow threeDocuments ["defs"] false) :=
    discover_of_not_tooDeep rfl (by decide) (overlong?_eq_none_iff.1 (by decide +kernel))
  have searched : searchDocuments threeDocuments ["defs"] false = brokenMiddle := by decide +kernel
  rw [found, documentsBelow, searched]
  exact congrArg _ (List.mergeSort_of_pairwise (by decide))

theorem noted_brokenMiddle : ∀ file ∈ brokenMiddle, file.Noted := by
  decide +kernel

theorem accounts_of_load_threeDocuments :
    discover threeDocuments [] "defs" false = .ok brokenMiddle ∧
    (∀ file ∈ brokenMiddle, file.Noted) ∧
    ∃ loading, load threeDocuments [] "defs" ⟨false, true, none⟩ = .ok loading ∧
      (loading.stop? = none ↔ LoadOptions.Staffed ⟨false, true, none⟩ brokenMiddle) ∧
      (loading.stop? = none → loading.Accounts true brokenMiddle ∧
        ∃ tasks, Gathering.ofFiles true brokenMiddle =
          .ok ⟨tasks, loading.collections, loading.errors, loading.cancelled⟩) :=
  ⟨discover_threeDocuments, noted_brokenMiddle,
    accounts_of_load ⟨false, true, none⟩ discover_threeDocuments noted_brokenMiddle⟩

end Sample

end SchemaScript
