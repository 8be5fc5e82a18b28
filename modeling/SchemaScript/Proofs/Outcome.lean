import SchemaScript.Proofs.Cycles
import SchemaScript.Proofs.Loaded
import SchemaScript.Proofs.NullFree

/-!
What comes of a run. It has a script exactly if the directory is there, all documents load, no name
is defined twice, and no cycle can be reached from what the filter accepts; it succeeds if besides
the script can be written, unless it is only shown. Anything else is told by a report with errors,
but for two things, which end the run without a report: a path of the search for documents that is
too long to be looked up, and lone surrogates in a script that is written.
-/

namespace SchemaScript

structure DistinctNames (collections : List Collection) : Prop where
  enums : ((collections.flatMap (·.enums)).map fun d => d.qualifiedName).Nodup
  composites : ((collections.flatMap (·.composites)).map fun d => d.qualifiedName).Nodup
  tables : ((collections.flatMap (·.tables)).map fun d => d.qualifiedName).Nodup

theorem Catalog.exists_merge_empty_iff {collections : List Collection} :
    (∃ catalog, Catalog.empty.merge collections = .ok catalog) ↔ DistinctNames collections :=
  exists_merge_iff.trans
    ⟨fun admits => ⟨admits.enums, admits.composites, admits.tables⟩,
      fun distinct => ⟨distinct.enums, distinct.composites, distinct.tables⟩⟩

namespace Settings

/-- Settings with which a run is possible: all paths are given, none holds a null character, and
the number of workers is not negative. -/
structure Usable (settings : Settings) : Prop where
  pathIn : ∃ path, settings.pathIn = some path ∧ NullFree path
  pathOut : ∃ path, settings.pathOut = some path ∧ NullFree path
  outputFile : ∃ path, settings.outputFile = some path ∧ NullFree path
  workers : ∀ workers, settings.maxWorkers = some workers → 0 ≤ workers

def directory (settings : Settings) : String := Path.display (settings.pathIn.getD "")

/-- The documents that a run reads. Where the search for them fails there are none. -/
def documents (settings : Settings) (tree : FileTree) (workplace : Location) : List SourceFile :=
  (discover tree workplace (settings.pathIn.getD "")
    (settings.recursive.getD false)).toOption.getD []

/-- A path that the search for documents comes to is too long to be looked up. -/
def TooLong (settings : Settings) (tree : FileTree) (workplace : Location) : Prop :=
  tree.Overlong workplace settings.directory (settings.recursive.getD false)

/-- What a run needs to have a script. Cycles that nothing accepted leads to do not matter. -/
structure Renders (settings : Settings) (filter : NameFilter) (tree : FileTree)
    (workplace : Location) : Prop where
  directory : tree.reachesDirectory workplace settings.directory = true
  documents : ∀ file ∈ settings.documents tree workplace, file.Loads
  names : DistinctNames (collectionsOf (settings.documents tree workplace))
  cycles : ∀ catalog,
    Catalog.empty.merge (collectionsOf (settings.documents tree workplace)) = .ok catalog →
      catalog.AcyclicUnder filter

def Writes (settings : Settings) (filter : NameFilter) (tree : FileTree) (workplace : Location) :
    Prop :=
  ∃ path report, settings.outputPath = .ok path ∧
    (generate settings filter true tree workplace).outcome = .ok report ∧
    report.isUnicode = true ∧
    (tree.writeBelow workplace path report.sql.toUTF8).fault? = none

/-- The script that a dry run shows cannot be encoded, which is noticed when its file is open. -/
def MeetsSurrogates (settings : Settings) (filter : NameFilter) (tree : FileTree)
    (workplace : Location) : Prop :=
  ∃ path report, settings.outputPath = .ok path ∧
    (generate settings filter true tree workplace).outcome = .ok report ∧
    report.isUnicode = false ∧
    (tree.writeBelow workplace path report.content).fault? = none

end Settings

/-- A report says what came of a run. -/
structure Report.Tells (report : Report) (settings : Settings) (filter : NameFilter)
    (dryRun : Bool) (tree : FileTree) (workplace : Location) : Prop where
  success : report.success = true ↔ settings.Renders filter tree workplace ∧
    (dryRun = true ∨ settings.Writes filter tree workplace)
  errors : report.errors ≠ [] ↔ report.success = false
  unrendered : ¬ settings.Renders filter tree workplace →
    report.sql = "" ∧ report.objectCount = 0 ∧ report.sections = [] ∧ report.outputPath = none
  unwritten : settings.Renders filter tree workplace → report.success = false →
    ∃ dry, (generate settings filter true tree workplace).outcome = .ok dry ∧
      report.sql = dry.sql ∧ report.objectCount = dry.objectCount ∧
      report.sections = dry.sections

namespace Settings

variable {settings : Settings} {filter : NameFilter} {tree : FileTree} {workplace : Location}

section PathIn

variable {directory : String} (given : settings.pathIn = some directory)

include given

theorem directory_eq_of_pathIn : settings.directory = Path.display directory := by
  rw [Settings.directory, given, Option.getD_some]

theorem tooLong_iff_of_pathIn :
    settings.TooLong tree workplace ↔
      tree.Overlong workplace (Path.display directory) (settings.recursive.getD false) := by
  rw [TooLong, directory_eq_of_pathIn given]

theorem documents_eq_of_discover {files : List SourceFile}
    (found : discover tree workplace directory (settings.recursive.getD false) = .ok files) :
    settings.documents tree workplace = files := by
  rw [documents, given, Option.getD_some, found]
  rfl

theorem loading_eq_of_pathIn :
    settings.loading tree workplace =
      (load tree workplace directory settings.loadOptions).mapError Obstacle.ofDiscovery := by
  rw [loading, given]

theorem catalog_eq_of_discover_error {fault : DiscoveryFault}
    (missed : discover tree workplace directory (settings.recursive.getD false) = .error fault) :
    settings.catalog tree workplace = .error (.ofDiscovery fault) := by
  have unread : load tree workplace directory settings.loadOptions = .error fault := by
    rw [load, loadOptions, missed]
    rfl
  rw [catalog, definitions, loading_eq_of_pathIn given, unread]
  rfl

end PathIn

theorem catalog_of_tooLong (usable : settings.Usable) (long : settings.TooLong tree workplace) :
    ∃ path, settings.catalog tree workplace =
      .error (.halt (.path (.refused .nameTooLong path))) := by
  obtain ⟨directory, given, _⟩ := usable.pathIn
  obtain ⟨path, missed⟩ := discover_of_overlong ((tooLong_iff_of_pathIn given).1 long)
  exact ⟨path, catalog_eq_of_discover_error given missed⟩

section Noted

variable (usable : settings.Usable)
  (noted : ∀ file ∈ settings.documents tree workplace, file.Noted)

include usable noted

theorem definitions_eq_of_discover {directory : String} {files : List SourceFile}
    (given : settings.pathIn = some directory)
    (found : discover tree workplace directory (settings.recursive.getD false) = .ok files) :
    settings.documents tree workplace = files ∧
      settings.definitions tree workplace = (Loading.ofFiles directory files).definitions := by
  have listed := documents_eq_of_discover given found
  refine ⟨listed, ?_⟩
  have read : load tree workplace directory settings.loadOptions =
      .ok (.ofFiles directory files) :=
    load_eq_ofFiles rfl usable.workers found (listed ▸ noted)
  rw [definitions, loading_eq_of_pathIn given, read]
  rfl

/-- There is a catalog exactly if the directory is there, all documents load and no name is defined
twice, unless a path is too long for the search. -/
theorem catalog_stages (short : ¬ settings.TooLong tree workplace) :
    (∃ catalog, settings.catalog tree workplace = .ok catalog ∧
      Catalog.empty.merge (collectionsOf (settings.documents tree workplace)) = .ok catalog ∧
      tree.reachesDirectory workplace settings.directory = true ∧
      ∀ file ∈ settings.documents tree workplace, file.Loads) ∨
    (∃ failure, settings.catalog tree workplace = .error (.failure failure) ∧
      failure.errors ≠ [] ∧ ∀ filter, ¬ settings.Renders filter tree workplace) := by
  obtain ⟨directory, given, _⟩ := usable.pathIn
  have shown := directory_eq_of_pathIn given
  rw [tooLong_iff_of_pathIn given] at short
  rcases discover_cases tree workplace directory (settings.recursive.getD false) with
    ⟨files, found, reached, _⟩ | ⟨long, _⟩ | ⟨away, _, missed⟩
  · obtain ⟨rfl, read⟩ := definitions_eq_of_discover usable noted given found
    simp only [catalog, read, Loading.definitions, Loading.stop?_ofFiles noted]
    have loads_iff : (Loading.ofFiles directory (settings.documents tree workplace)).errors = [] ↔
        ∀ file ∈ settings.documents tree workplace, file.Loads :=
      Loading.errors_ofFiles_eq_nil_iff
    by_cases loads : ∀ file ∈ settings.documents tree workplace, file.Loads
    · have complete : (Loading.ofFiles directory (settings.documents tree workplace)).isSuccess =
          true := by
        simp [Loading.isSuccess, loads_iff.2 loads]
      simp only [complete, Loading.collections_ofFiles, ↓reduceIte, bind, Except.bind, mergeAll]
      cases merged : Catalog.empty.merge (collectionsOf (settings.documents tree workplace)) with
      | ok catalog => exact .inl ⟨catalog, rfl, rfl, shown ▸ reached, loads⟩
      | error duplicates =>
        refine .inr ⟨_, rfl, ?_, fun filter renders => ?_⟩
        · simpa [Failure.errors] using Catalog.ne_nil_of_merge_error merged
        · obtain ⟨catalog, made⟩ := Catalog.exists_merge_empty_iff.2 renders.names
          cases made.symm.trans merged
    · have faulty := mt loads_iff.1 loads
      have incomplete : (Loading.ofFiles directory
          (settings.documents tree workplace)).isSuccess = false := by
        simp [Loading.isSuccess, faulty]
      simp only [incomplete, Bool.false_eq_true, ↓reduceIte, bind, Except.bind]
      refine .inr ⟨_, rfl, ?_, fun filter renders => loads renders.documents⟩
      simpa [Failure.errors] using faulty
  · exact absurd long short
  · refine .inr ⟨_, catalog_eq_of_discover_error given missed, by simp [Failure.errors], ?_⟩
    intro filter renders
    rw [← shown] at away
    exact absurd renders.directory (by simp [away])

end Noted

theorem Usable.outputPath (usable : settings.Usable) :
    ∃ path, settings.outputPath = .ok path ∧ NullFree path := by
  obtain ⟨directory, hd, plainDirectory⟩ := usable.pathOut
  obtain ⟨file, hf, plainFile⟩ := usable.outputFile
  refine ⟨Path.join directory file, ?_, Path.join_nullFree plainDirectory plainFile⟩
  simp only [Settings.outputPath, hd, hf]

end Settings

section Delivery

variable {settings : Settings} {filter : NameFilter} {tree : FileTree} {workplace : Location}

theorem Report.content_eq {report : Report} (unicode : report.isUnicode = true) :
    report.content = report.sql.toUTF8 := if_pos unicode

theorem deliver_cases {path : String} (catalog : Catalog) (report : Report)
    (placed : settings.outputPath = .ok path) (plain : NullFree path) :
    ((tree.writeBelow workplace path report.content).fault? = none ∧
      (deliver settings tree workplace catalog report).outcome =
        if report.isUnicode then .ok (report.written path) else .error .notUnicode) ∨
    ∃ fault, (tree.writeBelow workplace path report.content).fault? = some fault ∧
      (deliver settings tree workplace catalog report).outcome =
        .ok (report.unwritten (.unwritten path fault)) := by
  simp only [deliver, placed]
  cases met : (tree.writeBelow workplace path report.content).fault? with
  | none => exact .inl ⟨rfl, rfl⟩
  | some fault =>
    have visible := FileTree.writeBelow_ne_nullCharacter plain met
    cases fault with
    | nullCharacter => exact absurd rfl visible
    | refused trouble refusedPath => exact .inr ⟨_, rfl, rfl⟩

theorem generate_of_failure {failure : Failure} {dryRun : Bool}
    (failed : settings.catalog tree workplace = .error (.failure failure)) :
    (generate settings filter dryRun tree workplace).outcome = .ok (.failed failure) := by
  rw [generate, failed]

theorem generate_of_cycle {catalog : Catalog} {cycle : Cycle} {dryRun : Bool}
    (made : settings.catalog tree workplace = .ok catalog)
    (circular : Emission.ofCatalog catalog filter = .error cycle) :
    (generate settings filter dryRun tree workplace).outcome = .ok (.failed (.cycle cycle)) := by
  simp only [generate, made, circular]

theorem generate_of_emission {catalog : Catalog} {emission : Emission}
    (made : settings.catalog tree workplace = .ok catalog)
    (emitted : Emission.ofCatalog catalog filter = .ok emission) (dryRun : Bool) :
    (generate settings filter dryRun tree workplace).outcome =
      if dryRun then .ok (.rendered emission settings)
      else (deliver settings tree workplace catalog (.rendered emission settings)).outcome := by
  simp only [generate, made, emitted]
  cases dryRun <;> rfl

theorem sql_deliver {catalog : Catalog} {report delivered : Report}
    (done : (deliver settings tree workplace catalog report).outcome = .ok delivered) :
    delivered.sql = report.sql := by
  unfold deliver at done
  cases placed : settings.outputPath with
  | error fault =>
    rw [placed] at done
    cases done
  | ok path =>
    rw [placed] at done
    simp only at done
    split at done
    · split at done <;> cases done
      rfl
    · cases done
    · cases done
      rfl

theorem generate_cases (settings : Settings) (filter : NameFilter) (tree : FileTree)
    (workplace : Location) :
    (∃ halt, settings.catalog tree workplace = .error (.halt halt)) ∨
    (∃ failure, ∀ dryRun, (generate settings filter dryRun tree workplace).outcome =
      .ok (.failed failure)) ∨
    ∃ catalog emission, settings.catalog tree workplace = .ok catalog ∧
      Emission.ofCatalog catalog filter = .ok emission := by
  cases made : settings.catalog tree workplace with
  | error obstacle =>
    cases obstacle with
    | halt halt => exact .inl ⟨halt, rfl⟩
    | failure failure => exact .inr (.inl ⟨failure, fun _ => generate_of_failure made⟩)
  | ok catalog =>
    cases emitted : Emission.ofCatalog catalog filter with
    | error cycle => exact .inr (.inl ⟨_, fun _ => generate_of_cycle made emitted⟩)
    | ok emission => exact .inr (.inr ⟨catalog, emission, rfl, emitted⟩)

theorem generate_of_halt {halt : Halt} {dryRun : Bool}
    (halted : settings.catalog tree workplace = .error (.halt halt)) :
    (generate settings filter dryRun tree workplace).outcome = .error halt := by
  rw [generate, halted]

/-- Whether or not a run writes its script, its report shows that of a dry run. -/
theorem exists_dry_run {dryRun : Bool} {report : Report}
    (done : (generate settings filter dryRun tree workplace).outcome = .ok report) :
    ∃ dry, (generate settings filter true tree workplace).outcome = .ok dry ∧
      report.sql = dry.sql := by
  rcases generate_cases settings filter tree workplace with
    ⟨halt, halted⟩ | ⟨failure, failed⟩ | ⟨catalog, emission, made, emitted⟩
  · cases (generate_of_halt halted).symm.trans done
  · exact ⟨report, (failed true).trans ((failed dryRun).symm.trans done), rfl⟩
  · refine ⟨_, generate_of_emission made emitted true, ?_⟩
    rw [generate_of_emission made emitted] at done
    cases dryRun with
    | true =>
      cases done
      rfl
    | false => exact sql_deliver done

theorem Settings.MeetsSurrogates.halts (met : settings.MeetsSurrogates filter tree workplace) :
    (generate settings filter false tree workplace).outcome = .error .notUnicode := by
  obtain ⟨path, report, placed, shown, broken, opened⟩ := met
  rcases generate_cases settings filter tree workplace with
    ⟨halt, halted⟩ | ⟨failure, failed⟩ | ⟨catalog, emission, made, emitted⟩
  · cases (generate_of_halt halted).symm.trans shown
  · cases (failed true).symm.trans shown
    cases broken
  · cases (generate_of_emission made emitted true).symm.trans shown
    rw [generate_of_emission made emitted]
    simp [deliver, placed, opened, broken]

theorem Report.tells_failed {failure : Failure} {dryRun : Bool} (said : failure.errors ≠ [])
    (unrendered : ¬ settings.Renders filter tree workplace) :
    (Report.failed failure).Tells settings filter dryRun tree workplace where
  success := by simp [Report.failed, unrendered]
  errors := by simp [Report.failed, said]
  unrendered _ := ⟨rfl, rfl, rfl, rfl⟩
  unwritten renders := absurd renders unrendered

theorem Report.tells_rendered {catalog : Catalog} {emission : Emission}
    (made : settings.catalog tree workplace = .ok catalog)
    (emitted : Emission.ofCatalog catalog filter = .ok emission)
    (renders : settings.Renders filter tree workplace) :
    (Report.rendered emission settings).Tells settings filter true tree workplace where
  success := by simp [Report.rendered, renders]
  errors := by simp [Report.rendered]
  unrendered failed := absurd renders failed
  unwritten _ _ := by
    refine ⟨_, generate_of_emission made emitted true, rfl, rfl, rfl⟩

theorem exists_tells_deliver {catalog : Catalog} {emission : Emission} (usable : settings.Usable)
    (made : settings.catalog tree workplace = .ok catalog)
    (emitted : Emission.ofCatalog catalog filter = .ok emission)
    (renders : settings.Renders filter tree workplace)
    (encodes : ¬ settings.MeetsSurrogates filter tree workplace) :
    ∃ report,
      (deliver settings tree workplace catalog (.rendered emission settings)).outcome =
        .ok report ∧
      report.Tells settings filter false tree workplace := by
  obtain ⟨path, placed, plain⟩ := usable.outputPath
  have dry : (generate settings filter true tree workplace).outcome =
      .ok (.rendered emission settings) := generate_of_emission made emitted true
  rcases deliver_cases catalog (.rendered emission settings) placed plain with
    ⟨written, outcome⟩ | ⟨fault, met, outcome⟩
  · have unicode : (Report.rendered emission settings).isUnicode = true :=
      Bool.of_not_eq_false fun broken => encodes ⟨path, _, placed, dry, broken, written⟩
    have writes : settings.Writes filter tree workplace :=
      ⟨path, _, placed, dry, unicode, Report.content_eq unicode ▸ written⟩
    rw [if_pos unicode] at outcome
    refine ⟨_, outcome, ?_⟩
    constructor
    · simp [Report.written, Report.rendered, renders, writes]
    · simp [Report.written, Report.rendered]
    · exact fun failed => absurd renders failed
    · exact fun _ failed => by simp [Report.written, Report.rendered] at failed
  · have refused : ¬ settings.Writes filter tree workplace := by
      rintro ⟨other, report, placed', dry', unicode, written⟩
      cases placed'.symm.trans placed
      cases dry'.symm.trans dry
      rw [← Report.content_eq unicode, met] at written
      cases written
    refine ⟨_, outcome, ?_⟩
    constructor
    · simp [Report.unwritten, refused]
    · simp [Report.unwritten, Failure.errors]
    · exact fun failed => absurd renders failed
    · exact fun _ _ => ⟨_, dry, rfl, rfl, rfl⟩

end Delivery

/-- A usable run tells in its report what came of it, exactly if no path is too long for the search
and the script, where it is written, has no lone surrogates. -/
theorem exists_tells_iff {settings : Settings} {tree : FileTree} {workplace : Location}
    (usable : settings.Usable) (noted : ∀ file ∈ settings.documents tree workplace, file.Noted)
    (filter : NameFilter) (dryRun : Bool) :
    (∃ report, (generate settings filter dryRun tree workplace).outcome = .ok report ∧
      report.Tells settings filter dryRun tree workplace) ↔
    ¬ settings.TooLong tree workplace ∧
      (dryRun = true ∨ ¬ settings.MeetsSurrogates filter tree workplace) := by
  constructor
  · rintro ⟨report, told, _⟩
    refine ⟨fun long => ?_, ?_⟩
    · obtain ⟨path, halted⟩ := Settings.catalog_of_tooLong usable long
      cases (generate_of_halt halted).symm.trans told
    · cases dryRun with
      | true => exact .inl rfl
      | false => exact .inr fun met => by cases met.halts.symm.trans told
  · rintro ⟨short, encodes⟩
    rcases Settings.catalog_stages usable noted short with
      ⟨catalog, made, merged, reached, loads⟩ | ⟨failure, failed, said, unrendered⟩
    · cases emitted : Emission.ofCatalog catalog filter with
      | error cycle =>
        refine ⟨_, generate_of_cycle made emitted, ?_⟩
        refine Report.tells_failed (by simp [Failure.errors]) fun renders => ?_
        obtain ⟨emission, built⟩ := Emission.exists_ofCatalog_iff.2 (renders.cycles catalog merged)
        cases built.symm.trans emitted
      | ok emission =>
        have renders : settings.Renders filter tree workplace := by
          refine ⟨reached, loads, Catalog.exists_merge_empty_iff.1 ⟨catalog, merged⟩, ?_⟩
          intro other merged'
          cases merged'.symm.trans merged
          exact Emission.exists_ofCatalog_iff.1 ⟨emission, emitted⟩
        rw [generate_of_emission made emitted dryRun]
        cases dryRun with
        | true => exact ⟨_, rfl, Report.tells_rendered made emitted renders⟩
        | false =>
          have encodes := encodes.resolve_left Bool.false_ne_true
          exact exists_tells_deliver usable made emitted renders encodes
    · exact ⟨_, generate_of_failure failed, Report.tells_failed said (unrendered filter)⟩

namespace Sample

def paint : String :=
  "\x7b\"tables\":[\x7b\"name\":\"paint\",\"columns\":[\x7b\"name\":\"shade\",\"type\":\"text\"," ++
    "\"comment\":\"';--\"\x7d]\x7d]\x7d"

def paintTree : FileTree where
  entries := [(["defs"], .directory), (["defs", "paint.yaml"], .file paint.toUTF8)]
  nodup := by decide

def fromDirectory (path : String) : Settings :=
  ⟨some path, some "output", some "script.sql", none, none, none, none⟩

theorem usable_fromDirectory {path : String} (plain : NullFree path) :
    (fromDirectory path).Usable where
  pathIn := ⟨path, rfl, plain⟩
  pathOut := ⟨"output", rfl, by decide⟩
  outputFile := ⟨"script.sql", rfl, by decide⟩
  workers := nofun

theorem exists_tells_iff_paintTree :
    (fromDirectory "defs").Usable ∧
    (∀ file ∈ (fromDirectory "defs").documents paintTree [], file.Noted) ∧
    ((∃ report, (generate (fromDirectory "defs") acceptAll false paintTree []).outcome =
        .ok report ∧
      report.Tells (fromDirectory "defs") acceptAll false paintTree []) ↔
    ¬ (fromDirectory "defs").TooLong paintTree [] ∧
      (false = true ∨ ¬ (fromDirectory "defs").MeetsSurrogates acceptAll paintTree [])) := by
  have usable : (fromDirectory "defs").Usable := usable_fromDirectory (by decide)
  have noted : ∀ file ∈ (fromDirectory "defs").documents paintTree [], file.Noted := by
    decide +kernel
  exact ⟨usable, noted, exists_tells_iff usable noted acceptAll false⟩

end Sample

structure Path.Single (path : String) : Prop where
  slashless : '/' ∉ path.toList
  nonempty : path ≠ ""
  not_current : path ≠ "."
  not_above : path ≠ ".."

namespace Path.Single

variable {path : String}

theorem names_eq (single : Single path) : names path = [path] := by
  rw [names, List.splitOn_eq_singleton single.slashless]
  simp

theorem root_eq (single : Single path) : root path = "" := by
  have slashless := single.slashless
  unfold root
  split <;> simp_all

theorem isAbsolute_eq (single : Single path) : isAbsolute path = false := by
  have other : path.toList.head? ≠ some '/' :=
    fun first => single.slashless (List.mem_of_head? first)
  simpa [isAbsolute] using other

theorem display_eq (single : Single path) : display path = path := by
  have kept : [path].filter (!isCurrent ·) = [path] := by
    simp [isCurrent, single.nonempty, single.not_current]
  simp [display, single.root_eq, single.names_eq, kept, single.nonempty]

theorem locate_eq_nameTooLong {tree : FileTree} {workplace : Location} (single : Single path)
    (plain : NullFree path) (there : tree.isDirectory workplace = true)
    (long : FileTree.greatestName < path.utf8ByteSize)
    (short : path.utf8ByteSize ≤ FileTree.greatestPath) :
    tree.locate workplace path = .error (.refused .nameTooLong path) := by
  have absent : '\x00' ∉ path.toList := plain
  have checked : FileTree.checkPath path = .ok () := by
    simp [FileTree.checkPath, absent, single.nonempty, Nat.not_lt.2 short]
  have refused : tree.follow workplace [path] = .error .nameTooLong := by
    simp [FileTree.follow, there, isCurrent, single.nonempty, single.not_current,
      single.not_above, long]
  simp only [FileTree.locate, checked, FileTree.origin, single.isAbsolute_eq, single.names_eq,
    Bool.false_eq_true, ↓reduceIte, refused]
  rfl

end Path.Single

namespace Sample

def letters : Nat → String
  | 0 => ""
  | n + 1 => (letters n).push 'a'

theorem utf8ByteSize_letters (n : Nat) : (letters n).utf8ByteSize = n := by
  induction n with
  | zero => rfl
  | succ n ih =>
    rw [letters, String.utf8ByteSize_push, ih]
    rfl

theorem eq_of_mem_letters {n : Nat} {c : Char} (h : c ∈ (letters n).toList) : c = 'a' := by
  induction n with
  | zero => simp [letters] at h
  | succ n ih =>
    rw [letters, String.toList_push, List.mem_append, List.mem_singleton] at h
    exact h.elim ih id

theorem nullFree_letters (n : Nat) : NullFree (letters n) := fun found =>
  absurd (eq_of_mem_letters found) (by decide)

theorem single_letters {n : Nat} (several : 2 < n) : Path.Single (letters n) := by
  have longer : 2 < (letters n).utf8ByteSize := by rwa [utf8ByteSize_letters]
  constructor
  · exact fun found => absurd (eq_of_mem_letters found) (by decide)
  · exact fun same => absurd (same ▸ longer) (by decide)
  · exact fun same => absurd (same ▸ longer) (by decide)
  · exact fun same => absurd (same ▸ longer) (by decide)

theorem no_report_of_long {n : Nat} (long : FileTree.greatestName < n)
    (short : n ≤ FileTree.greatestPath) :
    (fromDirectory (letters n)).Usable ∧ (fromDirectory (letters n)).documents .empty [] = [] ∧
    ¬ ∃ report, (generate (fromDirectory (letters n)) acceptAll true .empty []).outcome =
      .ok report := by
  have single : Path.Single (letters n) := single_letters (Nat.lt_trans (by decide) long)
  have usable := usable_fromDirectory (nullFree_letters n)
  have refused : FileTree.empty.locate [] (Path.display (letters n)) =
      .error (.refused .nameTooLong (letters n)) := by
    rw [single.display_eq]
    rw [← utf8ByteSize_letters n] at long short
    exact single.locate_eq_nameTooLong (nullFree_letters n) rfl long short
  have missed : discover .empty [] (letters n) false =
      .error (.refused (.refused .nameTooLong (letters n))) := by
    simp only [discover, refused]
  refine ⟨usable, ?_, ?_⟩
  · simp only [Settings.documents, fromDirectory, Option.getD, missed, Except.toOption]
  · rintro ⟨report, told⟩
    have tooLong : (fromDirectory (letters n)).TooLong .empty [] := .inl ⟨_, refused⟩
    obtain ⟨path, halted⟩ := Settings.catalog_of_tooLong usable tooLong
    cases (generate_of_halt halted).symm.trans told

theorem no_report_of_letters :
    (fromDirectory (letters 256)).Usable ∧
    (fromDirectory (letters 256)).documents .empty [] = [] ∧
    ¬ ∃ report, (generate (fromDirectory (letters 256)) acceptAll true .empty []).outcome =
      .ok report :=
  no_report_of_long (by decide) (by decide)

end Sample

end SchemaScript
