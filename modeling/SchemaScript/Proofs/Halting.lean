import SchemaScript.Proofs.Surrogates

/-!
Runs that end without a report. Where all settings are given and every fault of a document is one
that is noted, four things are left that do: a path that is too long for the search of documents, a
negative number of workers for documents that are there, a null character in the path of the script
that is met when it is written, and lone surrogates in the script when its file is open.
-/

namespace SchemaScript

namespace Settings

variable {settings : Settings} {filter : NameFilter} {tree : FileTree} {workplace : Location}

/-- Every path has a value, whatever it is. -/
structure Given (settings : Settings) : Prop where
  pathIn : ∃ path, settings.pathIn = some path
  pathOut : ∃ path, settings.pathOut = some path
  outputFile : ∃ path, settings.outputFile = some path

theorem Given.outputPath (given : settings.Given) : ∃ path, settings.outputPath = .ok path := by
  obtain ⟨directory, hd⟩ := given.pathOut
  obtain ⟨file, hf⟩ := given.outputFile
  exact ⟨Path.join directory file, by simp only [Settings.outputPath, hd, hf]⟩

def Halts (settings : Settings) (tree : FileTree) (workplace : Location) : Prop :=
  ∃ halt, settings.catalog tree workplace = .error (.halt halt)

theorem not_halts_of_failure {failure : Failure}
    (failed : settings.definitions tree workplace = .error (.failure failure)) :
    ¬ settings.Halts tree workplace := by
  rintro ⟨halt, halted⟩
  rw [catalog, failed] at halted
  cases halted

theorem not_halts_of_definitions {collections : List Collection}
    (defined : settings.definitions tree workplace = .ok collections) :
    ¬ settings.Halts tree workplace := by
  rintro ⟨halt, halted⟩
  rw [catalog, defined] at halted
  cases merged : Catalog.empty.merge collections with
  | error duplicates =>
    simp only [bind, Except.bind, mergeAll, merged] at halted
    cases halted
  | ok catalog =>
    simp only [bind, Except.bind, mergeAll, merged] at halted
    cases halted

theorem halts_of_unstaffed {directory : String} {files : List SourceFile}
    (given : settings.pathIn = some directory)
    (found : discover tree workplace directory (settings.recursive.getD false) = .ok files)
    (alone : ¬ settings.Staffed files) : settings.Halts tree workplace := by
  refine ⟨.load .noWorkers, ?_⟩
  rw [catalog, definitions_of_loading (loading_of_unstaffed given found alone)]
  rfl

theorem not_halts_of_staffed {directory : String} {files : List SourceFile}
    (given : settings.pathIn = some directory)
    (found : discover tree workplace directory (settings.recursive.getD false) = .ok files)
    (staffed : settings.Staffed files) (noted : ∀ file ∈ files, file.Noted) :
    ¬ settings.Halts tree workplace := by
  have read : settings.loading tree workplace = .ok (.ofFiles directory files) := by
    rw [loading_of_staffed given found staffed, attempts_eq_map noted]
    rfl
  have defined := definitions_of_loading read
  rw [Loading.definitions, Loading.stop?_ofFiles noted] at defined
  cases success : (Loading.ofFiles directory files).isSuccess with
  | true =>
    simp only [success, ↓reduceIte] at defined
    exact not_halts_of_definitions defined
  | false =>
    simp only [success, Bool.false_eq_true, ↓reduceIte] at defined
    exact not_halts_of_failure defined

theorem halts_iff (given : settings.Given)
    (noted : ∀ file ∈ settings.documents tree workplace, file.Noted) :
    settings.Halts tree workplace ↔ settings.TooLong tree workplace ∨
      ¬ settings.Staffed (settings.documents tree workplace) := by
  obtain ⟨directory, hd⟩ := given.pathIn
  rw [tooLong_iff_of_pathIn hd]
  rcases discover_cases tree workplace directory (settings.recursive.getD false) with
    ⟨files, found, _, short⟩ | ⟨long, path, missed⟩ | ⟨_, short, missed⟩
  · obtain rfl := documents_eq_of_discover hd found
    by_cases staffed : settings.Staffed (settings.documents tree workplace)
    · simp [short, staffed, not_halts_of_staffed hd found staffed noted]
    · simp [staffed, halts_of_unstaffed hd found staffed]
  · refine iff_of_true ⟨.path (.refused .nameTooLong path), ?_⟩ (.inl long)
    exact catalog_eq_of_discover_error hd missed
  · have none : settings.documents tree workplace = [] := by
      rw [documents, hd, Option.getD_some, missed]
      rfl
    have staffed : settings.Staffed [] := fun some => absurd rfl some
    have failed : settings.definitions tree workplace =
        .error (.failure (.notDirectory (Path.display directory))) :=
      definitions_of_discover_error hd missed
    simp [short, none, staffed, not_halts_of_failure failed]

/-- A script is there, but to write it meets a null character. -/
def MeetsNull (settings : Settings) (filter : NameFilter) (tree : FileTree)
    (workplace : Location) : Prop :=
  ∃ path dry, settings.outputPath = .ok path ∧
    (generate settings filter true tree workplace).outcome = .ok dry ∧ dry.success = true ∧
    (tree.writeBelow workplace path dry.content).fault? = some .nullCharacter

theorem MeetsNull.not_nullFree (met : settings.MeetsNull filter tree workplace) :
    ∃ path, settings.outputPath = .ok path ∧ ¬ NullFree path := by
  obtain ⟨path, dry, placed, _, _, null⟩ := met
  exact ⟨path, placed, fun plain => FileTree.writeBelow_ne_nullCharacter plain null rfl⟩

end Settings

variable {settings : Settings} {filter : NameFilter} {tree : FileTree} {workplace : Location}

theorem exists_report_deliver_iff {path : String} (placed : settings.outputPath = .ok path)
    (catalog : Catalog) (report : Report) :
    (∃ told, (deliver settings tree workplace catalog report).outcome = .ok told) ↔
      (tree.writeBelow workplace path report.content).fault? ≠ some .nullCharacter ∧
      ((tree.writeBelow workplace path report.content).fault? = none →
        report.isUnicode = true) := by
  simp only [deliver, placed]
  cases (tree.writeBelow workplace path report.content).fault? with
  | none => cases report.isUnicode <;> simp
  | some fault => cases fault <;> simp

theorem not_exists_report_of_halts (halts : settings.Halts tree workplace) (dryRun : Bool) :
    ¬ ∃ report, (generate settings filter dryRun tree workplace).outcome = .ok report := by
  rintro ⟨report, told⟩
  obtain ⟨halt, halted⟩ := halts
  cases (generate_of_halt halted).symm.trans told

theorem exists_report_iff_of_not_halts (given : settings.Given)
    (goes : ¬ settings.Halts tree workplace) (dryRun : Bool) :
    (∃ report, (generate settings filter dryRun tree workplace).outcome = .ok report) ↔
      dryRun = true ∨ ¬ settings.MeetsNull filter tree workplace ∧
        ¬ settings.MeetsSurrogates filter tree workplace := by
  rcases generate_cases settings filter tree workplace with
    halts | ⟨failure, failed⟩ | ⟨catalog, emission, made, emitted⟩
  · exact absurd halts goes
  · refine iff_of_true ⟨_, failed dryRun⟩ (.inr ⟨?_, ?_⟩)
    · rintro ⟨path, dry, _, shown, succeeded, _⟩
      cases (failed true).symm.trans shown
      cases succeeded
    · rintro ⟨path, dry, _, shown, broken, _⟩
      cases (failed true).symm.trans shown
      cases broken
  · rw [generate_of_emission made emitted]
    cases dryRun with
    | true => exact iff_of_true ⟨_, rfl⟩ (.inl rfl)
    | false =>
      obtain ⟨path, placed⟩ := given.outputPath
      have dry : (generate settings filter true tree workplace).outcome =
          .ok (.rendered emission settings) := generate_of_emission made emitted true
      have meetsNull_iff : settings.MeetsNull filter tree workplace ↔
          (tree.writeBelow workplace path (Report.rendered emission settings).content).fault? =
            some .nullCharacter := by
        refine ⟨?_, fun null => ⟨path, _, placed, dry, rfl, null⟩⟩
        rintro ⟨other, shown, placed', dry', _, null⟩
        cases placed'.symm.trans placed
        cases dry'.symm.trans dry
        exact null
      have meetsSurrogates_iff : settings.MeetsSurrogates filter tree workplace ↔
          (Report.rendered emission settings).isUnicode = false ∧
          (tree.writeBelow workplace path (Report.rendered emission settings).content).fault? =
            none := by
        refine ⟨?_, fun met => ⟨path, _, placed, dry, met⟩⟩
        rintro ⟨other, shown, placed', dry', met⟩
        cases placed'.symm.trans placed
        cases dry'.symm.trans dry
        exact met
      simp only [Bool.false_eq_true, ↓reduceIte, false_or]
      rw [exists_report_deliver_iff placed, meetsNull_iff, meetsSurrogates_iff]
      refine and_congr_right fun _ => ?_
      rw [← Bool.not_eq_true, not_and', not_not]

/-- A run has a report exactly if none of four things is the case: a path is too long for the
search, nobody is to read the documents, the script meets a null character in its path, or it meets
lone surrogates in what is written, which are those of the header or of a document. -/
theorem exists_report_iff (given : settings.Given)
    (noted : ∀ file ∈ settings.documents tree workplace, file.Noted) (filter : NameFilter)
    (dryRun : Bool) :
    ((∃ report, (generate settings filter dryRun tree workplace).outcome = .ok report) ↔
      ¬ settings.TooLong tree workplace ∧
      settings.Staffed (settings.documents tree workplace) ∧
      (dryRun = true ∨ ¬ settings.MeetsNull filter tree workplace ∧
        ¬ settings.MeetsSurrogates filter tree workplace)) ∧
    (settings.MeetsNull filter tree workplace →
      ∃ path, settings.outputPath = .ok path ∧ ¬ NullFree path) ∧
    (settings.MeetsSurrogates filter tree workplace →
      (∃ header ∈ settings.header, header.isUnicode = false) ∨
        ∃ file ∈ settings.documents tree workplace, file.HasSurrogates) := by
  refine ⟨?_, Settings.MeetsNull.not_nullFree, Settings.MeetsSurrogates.exists_source⟩
  by_cases halts : settings.Halts tree workplace
  · refine iff_of_false (not_exists_report_of_halts halts dryRun) ?_
    rintro ⟨short, staffed, _⟩
    rcases (Settings.halts_iff given noted).1 halts with long | alone
    · exact short long
    · exact alone staffed
  · rw [exists_report_iff_of_not_halts given halts]
    have goes := mt (Settings.halts_iff given noted).2 halts
    rw [not_or, not_not] at goes
    exact ⟨fun written => ⟨goes.1, goes.2, written⟩, fun all => all.2.2⟩

namespace Sample

def withoutWorkers : Settings := { fromDirectory "defs" with maxWorkers := some (-1) }

theorem given_withoutWorkers : withoutWorkers.Given := ⟨⟨_, rfl⟩, ⟨_, rfl⟩, ⟨_, rfl⟩⟩

theorem noted_withoutWorkers :
    ∀ file ∈ withoutWorkers.documents paintTree [], file.Noted := by
  decide +kernel

theorem exists_report_iff_withoutWorkers :
    withoutWorkers.Given ∧ (∀ file ∈ withoutWorkers.documents paintTree [], file.Noted) ∧
    ((∃ report, (generate withoutWorkers acceptAll false paintTree []).outcome = .ok report) ↔
      ¬ withoutWorkers.TooLong paintTree [] ∧
      withoutWorkers.Staffed (withoutWorkers.documents paintTree []) ∧
      (false = true ∨ ¬ withoutWorkers.MeetsNull acceptAll paintTree [] ∧
        ¬ withoutWorkers.MeetsSurrogates acceptAll paintTree [])) ∧
    (withoutWorkers.MeetsNull acceptAll paintTree [] →
      ∃ path, withoutWorkers.outputPath = .ok path ∧ ¬ NullFree path) ∧
    (withoutWorkers.MeetsSurrogates acceptAll paintTree [] →
      (∃ header ∈ withoutWorkers.header, header.isUnicode = false) ∨
        ∃ file ∈ withoutWorkers.documents paintTree [], file.HasSurrogates) :=
  ⟨given_withoutWorkers, noted_withoutWorkers,
    exists_report_iff given_withoutWorkers noted_withoutWorkers acceptAll false⟩

theorem no_report_withoutWorkers :
    withoutWorkers.Given ∧ (∀ file ∈ withoutWorkers.documents paintTree [], file.Noted) ∧
    ¬ ∃ report, (generate withoutWorkers acceptAll true paintTree []).outcome = .ok report := by
  have some : (withoutWorkers.documents paintTree []).isEmpty = false := by
    decide +kernel
  have alone : ¬ withoutWorkers.Staffed (withoutWorkers.documents paintTree []) := fun staffed =>
    absurd (staffed (by simpa using some) (-1) rfl) (by decide)
  have halts : withoutWorkers.Halts paintTree [] :=
    (Settings.halts_iff given_withoutWorkers noted_withoutWorkers).2 (.inr alone)
  exact ⟨given_withoutWorkers, noted_withoutWorkers, not_exists_report_of_halts halts true⟩

end Sample

end SchemaScript
