import SchemaScript.Proofs.DeclarationOrder

/-!
Batches and collections. What merging comes to depends on the definitions in their order alone: they
may come in one batch or in several, and a batch may spread them over its collections at will. So a
directory has the same script if a document in it is split in two, or neighbours are joined.
-/

namespace SchemaScript

namespace Catalog

variable {catalog between merged : Catalog} {first second : List Collection}

theorem Admits.of_append (admits : catalog.Admits (first ++ second)) : catalog.Admits first := by
  obtain ⟨enums, composites, tables⟩ := admits
  rw [List.flatMap_append, List.map_append, ← List.append_assoc] at enums composites tables
  exact ⟨(List.nodup_append.1 enums).1, (List.nodup_append.1 composites).1,
    (List.nodup_append.1 tables).1⟩

theorem Extends.of_append (whole : Extends catalog merged (first ++ second))
    (part : Extends catalog between first) : Extends between merged second where
  enums := by rw [whole.enums, part.enums, List.flatMap_append, List.append_assoc]
  composites := by rw [whole.composites, part.composites, List.flatMap_append, List.append_assoc]
  tables := by rw [whole.tables, part.tables, List.flatMap_append, List.append_assoc]

/-- Two batches come to the same one after the other and at once. The schemas of the catalog between
them do not matter, since they are found anew. -/
theorem merge_append_eq_ok_iff :
    catalog.merge (first ++ second) = .ok merged ↔
      ∃ between, catalog.merge first = .ok between ∧ between.merge second = .ok merged := by
  constructor
  · intro done
    have extended := extends_merge done
    -- The first batch repeats no name, since not even both together do.
    obtain ⟨between, begun⟩ := exists_merge_iff.2 extended.admits.of_append
    have rest := extended.of_append (extends_merge begun)
    exact ⟨between, begun, merge_eq_ok_iff_extends.2 ⟨rest, schemas_merge done⟩⟩
  · rintro ⟨between, begun, done⟩
    have extended := (extends_merge begun).trans (extends_merge done)
    exact merge_eq_ok_iff_extends.2 ⟨extended, schemas_merge done⟩

end Catalog

/-- Collections that hold the same definitions in the same order, whichever collection holds
which. -/
structure SameLists (first second : List Collection) : Prop where
  enums : first.flatMap (·.enums) = second.flatMap (·.enums)
  composites : first.flatMap (·.composites) = second.flatMap (·.composites)
  tables : first.flatMap (·.tables) = second.flatMap (·.tables)

def Collection.join (parts : List Collection) : Collection where
  tables := parts.flatMap (·.tables)
  composites := parts.flatMap (·.composites)
  enums := parts.flatMap (·.enums)

theorem sameLists_join (before parts after : List Collection) :
    SameLists (before ++ parts ++ after) (before ++ Collection.join parts :: after) := by
  constructor <;> simp [Collection.join]

namespace SameLists

variable {first second : List Collection}

theorem extends_iff (same : SameLists first second) {catalog merged : Catalog} :
    Catalog.Extends catalog merged first ↔ Catalog.Extends catalog merged second := by
  constructor
  · rintro ⟨enums, composites, tables⟩
    exact ⟨same.enums ▸ enums, same.composites ▸ composites, same.tables ▸ tables⟩
  · rintro ⟨enums, composites, tables⟩
    exact ⟨same.enums ▸ enums, same.composites ▸ composites, same.tables ▸ tables⟩

theorem merge_eq_ok_iff (same : SameLists first second) {catalog merged : Catalog} :
    catalog.merge first = .ok merged ↔ catalog.merge second = .ok merged := by
  rw [Catalog.merge_eq_ok_iff_extends, Catalog.merge_eq_ok_iff_extends, same.extends_iff]

/-- The reports of two batches come in the order of their collections, but in each category they are
the same. -/
theorem filter_stage (same : SameLists first second) (catalog : Catalog) (kind : ObjectKind) :
    (catalog.stage first).2.filter (·.category == kind) =
      (catalog.stage second).2.filter (·.category == kind) := by
  rw [Catalog.filter_stage, Catalog.filter_stage, Catalog.leftOut, Catalog.leftOut, same.enums,
    same.composites, same.tables]

theorem merge_cases (same : SameLists first second) (catalog : Catalog) :
    (∃ merged, catalog.merge first = .ok merged ∧ catalog.merge second = .ok merged) ∨
      ∃ left right, catalog.merge first = .error left ∧ catalog.merge second = .error right ∧
        ∀ kind, left.filter (·.category == kind) = right.filter (·.category == kind) := by
  cases one : catalog.merge first with
  | ok merged => exact .inl ⟨merged, rfl, same.merge_eq_ok_iff.1 one⟩
  | error left =>
    cases two : catalog.merge second with
    | ok merged => cases (same.merge_eq_ok_iff.2 two).symm.trans one
    | error right =>
      refine .inr ⟨left, right, rfl, rfl, fun kind => ?_⟩
      rw [← (Catalog.merge_eq_error_iff.1 one).1, ← (Catalog.merge_eq_error_iff.1 two).1]
      exact same.filter_stage catalog kind

end SameLists

structure Report.ShowsSame (first second : Report) : Prop where
  success : first.success = second.success
  whole : first.success = true → first = second
  sql : first.sql = second.sql

structure SameScript (first second : Settings) (filter : NameFilter) (treeOne treeTwo : FileTree)
    (workplaceOne workplaceTwo : Location) : Prop where
  shown : ∃ report other,
    (generate first filter true treeOne workplaceOne).outcome = .ok report ∧
    (generate second filter true treeTwo workplaceTwo).outcome = .ok other ∧
    report.ShowsSame other
  /-- This is so too where the script is written, even if it cannot be. -/
  written : ∀ dryOne dryTwo report other,
    (generate first filter dryOne treeOne workplaceOne).outcome = .ok report →
    (generate second filter dryTwo treeTwo workplaceTwo).outcome = .ok other →
      report.sql = other.sql

theorem sameScript_of_shown {first second : Settings} {filter : NameFilter}
    {treeOne treeTwo : FileTree} {workplaceOne workplaceTwo : Location} {dry dryOther : Report}
    (one : (generate first filter true treeOne workplaceOne).outcome = .ok dry)
    (two : (generate second filter true treeTwo workplaceTwo).outcome = .ok dryOther)
    (shown : dry.ShowsSame dryOther) :
    SameScript first second filter treeOne treeTwo workplaceOne workplaceTwo where
  shown := ⟨dry, dryOther, one, two, shown⟩
  written dryOne dryTwo report other done doneOther := by
    obtain ⟨_, again, script⟩ := exists_dry_run done
    obtain ⟨_, againOther, scriptOther⟩ := exists_dry_run doneOther
    cases again.symm.trans one
    cases againOther.symm.trans two
    rw [script, scriptOther, shown.sql]

theorem SameLists.exists_shows_same {first second : List Collection}
    (same : SameLists first second) (settings : Settings) (one two : String)
    (filter : NameFilter) :
    ∃ report other,
      Report.ofEmission (settings.reading one) (Emission.ofCollections first filter) =
        .ok report ∧
      Report.ofEmission (settings.reading two) (Emission.ofCollections second filter) =
        .ok other ∧
      report.ShowsSame other := by
  unfold Emission.ofCollections mergeAll
  rcases same.merge_cases .empty with ⟨merged, done, doneOther⟩ | ⟨left, right, one, two, _⟩
  · rw [done, doneOther]
    cases emitted : Emission.ofCatalog merged filter with
    | ok emission =>
      simp only [Except.mapError, bind, Except.bind, emitted]
      exact ⟨_, _, rfl, rfl, rfl, fun _ => rfl, rfl⟩
    | error cycle =>
      simp only [Except.mapError, bind, Except.bind, emitted]
      exact ⟨_, _, rfl, rfl, rfl, fun _ => rfl, rfl⟩
  · rw [one, two]
    exact ⟨_, _, rfl, rfl, rfl, nofun, rfl⟩

/-- How definitions are split, over two batches or over the collections of one, does not matter. -/
structure MergesFlat (first second : List Collection) : Prop where
  batches : ∀ catalog merged : Catalog, catalog.merge (first ++ second) = .ok merged ↔
    ∃ between, catalog.merge first = .ok between ∧ between.merge second = .ok merged
  collections : SameLists first second → ∀ catalog : Catalog,
    (∃ merged, catalog.merge first = .ok merged ∧ catalog.merge second = .ok merged) ∨
      ∃ left right, catalog.merge first = .error left ∧ catalog.merge second = .error right ∧
        ∀ kind, left.filter (·.category == kind) = right.filter (·.category == kind)
  scripts : SameLists first second → ∀ (settings : Settings) (one two : String)
    (treeOne treeTwo : FileTree) (workplaceOne workplaceTwo : Location),
    (settings.reading one).definitions treeOne workplaceOne = .ok first →
    (settings.reading two).definitions treeTwo workplaceTwo = .ok second →
    ∀ filter, SameScript (settings.reading one) (settings.reading two) filter treeOne treeTwo
      workplaceOne workplaceTwo

theorem mergesFlat (first second : List Collection) : MergesFlat first second where
  batches _ _ := Catalog.merge_append_eq_ok_iff
  collections same catalog := same.merge_cases catalog
  scripts same settings one two treeOne treeTwo workplaceOne workplaceTwo defined definedOther
      filter := by
    obtain ⟨report, other, shown, shownOther, equal⟩ :=
      same.exists_shows_same settings one two filter
    refine sameScript_of_shown ?_ ?_ equal
    · rw [Settings.outcome_dry, Settings.emission_of_definitions defined, shown]
    · rw [Settings.outcome_dry, Settings.emission_of_definitions definedOther, shownOther]

namespace Sample

def twoParts : FileTree where
  entries := [(["parts"], .directory),
    (["parts", "early.yaml"], .file (documentOf ["paint"]).toUTF8),
    (["parts", "late.yaml"], .file (documentOf ["ink"]).toUTF8)]
  nodup := by decide

def early : SourceFile := ⟨["early.yaml"], (documentOf ["paint"]).toUTF8⟩

def late : SourceFile := ⟨["late.yaml"], (documentOf ["ink"]).toUTF8⟩

theorem documents_parts :
    ((fromDirectory "defs").reading "parts").documents twoParts [] = [early, late] := by
  have found : discover twoParts [] "parts" false = .ok (documentsBelow twoParts ["parts"] false) :=
    discover_of_not_tooDeep rfl (by decide) (overlong?_eq_none_iff.1 (by decide +kernel))
  have listed : ((fromDirectory "defs").reading "parts").documents twoParts [] =
      documentsBelow twoParts ["parts"] false := Settings.documents_eq_of_discover rfl found
  have searched : searchDocuments twoParts ["parts"] false = [early, late] := by decide +kernel
  rw [listed, documentsBelow, searched]
  exact List.mergeSort_of_pairwise (by decide)

theorem read_parts :
    (((fromDirectory "defs").reading "parts").documents twoParts []).map
        (fun file => readDocument file.content) =
      [some ⟨[paintTable], [], []⟩, some ⟨[inkTable], [], []⟩].map .ok := by
  rw [documents_parts]
  decide +kernel

theorem readable_parts : ((fromDirectory "defs").reading "parts").Readable twoParts [] where
  given := ⟨"parts", rfl⟩
  directory := by decide +kernel
  short := not_overlong ["parts"] rfl (by decide) (by decide +kernel)
  documents := loads_of_read read_parts
  staffed := nofun

theorem definitions_parts :
    ((fromDirectory "defs").reading "parts").definitions twoParts [] =
      .ok [⟨[paintTable], [], []⟩, ⟨[inkTable], [], []⟩] :=
  Settings.definitions_eq_ok_iff.2 ⟨readable_parts, collectionsOf_of_read read_parts⟩

theorem definitions_one :
    ((fromDirectory "defs").reading "one").definitions twoOrders [] =
      .ok [⟨[paintTable, inkTable], [], []⟩] :=
  Settings.definitions_eq_ok_iff.2 ⟨readable_one, collectionsOf_of_read read_one⟩

theorem sameLists_parts :
    SameLists [⟨[paintTable], [], []⟩, ⟨[inkTable], [], []⟩]
      [⟨[paintTable, inkTable], [], []⟩] :=
  sameLists_join [] [⟨[paintTable], [], []⟩, ⟨[inkTable], [], []⟩] []

theorem mergesFlat_parts :
    SameScript ((fromDirectory "defs").reading "parts") ((fromDirectory "defs").reading "one")
      acceptAll twoParts twoOrders [] [] :=
  (mergesFlat _ _).scripts sameLists_parts (fromDirectory "defs") "parts" "one" twoParts twoOrders
    [] [] definitions_parts definitions_one acceptAll

end Sample

end SchemaScript
