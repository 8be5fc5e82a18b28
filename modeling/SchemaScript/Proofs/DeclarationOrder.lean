import SchemaScript.Proofs.Documents
import SchemaScript.Proofs.Rearrangement

/-!
Directories with the same definitions. How the definitions are spread over the files of a directory,
and in what order, decides neither whether a dry run succeeds nor what it shows, but for the order
of the statements; and if names are defined twice, it reports the same ones.
-/

namespace SchemaScript

def Emission.ofCollections (collections : List Collection) (filter : NameFilter) :
    Except Obstacle Emission := do
  let catalog ← mergeAll collections
  (ofCatalog catalog filter).mapError fun cycle => .failure (.cycle cycle)

def Settings.emission (settings : Settings) (filter : NameFilter) (tree : FileTree)
    (workplace : Location) : Except Obstacle Emission := do
  Emission.ofCollections (← settings.definitions tree workplace) filter

def Report.ofEmission (settings : Settings) : Except Obstacle Emission → Except Halt Report
  | .ok emission => .ok (.rendered emission settings)
  | .error (.failure failure) => .ok (.failed failure)
  | .error (.halt halt) => .error halt

namespace Settings

variable {settings : Settings} {filter : NameFilter} {tree : FileTree} {workplace : Location}

theorem outcome_dry (settings : Settings) (filter : NameFilter) (tree : FileTree)
    (workplace : Location) :
    (generate settings filter true tree workplace).outcome =
      Report.ofEmission settings (settings.emission filter tree workplace) := by
  unfold generate emission catalog
  cases settings.definitions tree workplace with
  | error obstacle => cases obstacle <;> rfl
  | ok collections =>
    simp only [bind, Except.bind, Emission.ofCollections]
    cases mergeAll collections with
    | error obstacle => cases obstacle <;> rfl
    | ok catalog =>
      simp only
      cases Emission.ofCatalog catalog filter <;> rfl

theorem emission_of_definitions {collections : List Collection}
    (defined : settings.definitions tree workplace = .ok collections) (filter : NameFilter) :
    settings.emission filter tree workplace = Emission.ofCollections collections filter := by
  rw [emission, defined]
  rfl

theorem Readable.emission_eq (readable : settings.Readable tree workplace) :
    settings.emission filter tree workplace =
      Emission.ofCollections (collectionsOf (settings.documents tree workplace)) filter :=
  emission_of_definitions readable.definitions_eq filter

end Settings

/-- Results of dry runs that differ in the order of what they list. Of several cycles, each may have
met another one. -/
inductive Emission.Alike : Except Obstacle Emission → Except Obstacle Emission → Prop
  | built {first second : Emission} (same : first.Rearranges second) :
    Alike (.ok first) (.ok second)
  | cycles (first second : Cycle) :
    Alike (.error (.failure (.cycle first))) (.error (.failure (.cycle second)))
  | duplicates {first second : List Duplicate} (same : first.Perm second) :
    Alike (.error (.failure (.duplicates first))) (.error (.failure (.duplicates second)))

theorem Emission.alike_of_rearranges {catalog other : Catalog} {filter : NameFilter}
    (same : catalog.Rearranges other) :
    Alike ((ofCatalog catalog filter).mapError fun cycle => .failure (.cycle cycle))
      ((ofCatalog other filter).mapError fun cycle => .failure (.cycle cycle)) := by
  cases built : ofCatalog catalog filter with
  | ok emission =>
    obtain ⟨rearranged, builtOther, order⟩ := exists_rearranges_of_built same built
    rw [builtOther]
    exact .built order
  | error cycle =>
    cases builtOther : ofCatalog other filter with
    | ok rearranged =>
      obtain ⟨emission, again, _⟩ := exists_rearranges_of_built same.symm builtOther
      cases again.symm.trans built
    | error cycleOther => exact .cycles cycle cycleOther

theorem SameDefinitions.alike {first second : List Collection} (same : SameDefinitions first second)
    (filter : NameFilter) :
    Emission.Alike (Emission.ofCollections first filter)
      (Emission.ofCollections second filter) := by
  unfold Emission.ofCollections mergeAll
  rcases same.merge_cases .empty with
    ⟨catalog, other, one, two, order⟩ | ⟨left, right, one, two, order⟩
  · rw [one, two]
    exact Emission.alike_of_rearranges order
  · rw [one, two]
    exact .duplicates order

def Settings.reading (settings : Settings) (directory : String) : Settings :=
  { settings with pathIn := some directory }

/-- What two reports have in common that tell of the results of two dry runs. -/
structure Report.Agree (settings : Settings) (result other : Except Obstacle Emission)
    (first second : Report) : Prop where
  success : first.success = true ↔ second.success = true
  sections : first.success = true → first.sections = second.sections
  objectCount : first.success = true → first.objectCount = second.objectCount
  /-- Each shows the statements of its own result, and those are the same in whatever orders. -/
  statements : first.success = true → ∃ emission rearranged,
    result = .ok emission ∧ other = .ok rearranged ∧
    first.sql = emission.script settings.headerText (settings.destructive.getD false) ∧
    second.sql = rearranged.script settings.headerText (settings.destructive.getD false) ∧
    ((emission.statements (settings.destructive.getD false)).map (·.text)).Perm
      ((rearranged.statements (settings.destructive.getD false)).map (·.text))
  duplicates : ∀ left right, result = .error (.failure (.duplicates left)) →
    other = .error (.failure (.duplicates right)) → first.errors.Perm second.errors

theorem Emission.Alike.exists_agree {settings : Settings} {one two : String}
    {result other : Except Obstacle Emission} (alike : Emission.Alike result other) :
    ∃ first second : Report,
      Report.ofEmission (settings.reading one) result = .ok first ∧
      Report.ofEmission (settings.reading two) other = .ok second ∧
      first.Agree settings result other second := by
  cases alike with
  | built same =>
    refine ⟨_, _, rfl, rfl, Iff.rfl, fun _ => same.counts_eq, fun _ => same.size_eq,
      fun _ => ?_, ?_⟩
    · exact ⟨_, _, rfl, rfl, rfl, rfl, (same.perm_statements _).map _⟩
    · exact nofun
  | cycles first second =>
    exact ⟨_, _, rfl, rfl, Iff.rfl, nofun, nofun, nofun, nofun⟩
  | duplicates same =>
    exact ⟨_, _, rfl, rfl, Iff.rfl, nofun, nofun, nofun, fun _ _ _ _ => same.map _⟩

/-- Dry runs over two directories with the same definitions agree, wherever the directories are. -/
theorem exists_agreeing_reports {settings : Settings} {one two : String}
    {treeOne treeTwo : FileTree} {workplaceOne workplaceTwo : Location}
    (readableOne : (settings.reading one).Readable treeOne workplaceOne)
    (readableTwo : (settings.reading two).Readable treeTwo workplaceTwo)
    (same : SameDefinitions
      (collectionsOf ((settings.reading one).documents treeOne workplaceOne))
      (collectionsOf ((settings.reading two).documents treeTwo workplaceTwo)))
    (filter : NameFilter) :
    ∃ first second : Report,
      (generate (settings.reading one) filter true treeOne workplaceOne).outcome = .ok first ∧
      (generate (settings.reading two) filter true treeTwo workplaceTwo).outcome = .ok second ∧
      first.Agree settings ((settings.reading one).emission filter treeOne workplaceOne)
        ((settings.reading two).emission filter treeTwo workplaceTwo) second := by
  rw [Settings.outcome_dry, Settings.outcome_dry, readableOne.emission_eq, readableTwo.emission_eq]
  exact (same.alike filter).exists_agree

namespace Sample

def tableNamed (name : String) : String :=
  "\x7b\"name\":\"" ++ name ++
    "\",\"columns\":[\x7b\"name\":\"tone\",\"type\":\"text\"\x7d]\x7d"

def documentOf (tables : List String) : String :=
  "\x7b\"tables\":[" ++ ",".intercalate (tables.map tableNamed) ++ "]\x7d"

def twoOrders : FileTree where
  entries := [(["one"], .directory), (["two"], .directory),
    (["one", "dark.yaml"], .file (documentOf ["paint", "ink"]).toUTF8),
    (["two", "light.yaml"], .file (documentOf ["ink", "paint"]).toUTF8)]
  nodup := by decide

def publicTable (name : Identifier) : Table where
  schema := defaultSchema
  name := name
  comment := ""
  options := ⟨false⟩
  columns := [⟨.literal "text", ⟨"tone", by decide⟩, true, "", false⟩]
  columns_ne_nil := by decide
  one_identity := by decide

def paintTable : Table := publicTable ⟨"paint", by decide⟩

def inkTable : Table := publicTable ⟨"ink", by decide⟩

theorem read_one :
    (((fromDirectory "defs").reading "one").documents twoOrders []).map
        (fun file => readDocument file.content) =
      [some ⟨[paintTable, inkTable], [], []⟩].map .ok := by decide +kernel

theorem read_two :
    (((fromDirectory "defs").reading "two").documents twoOrders []).map
        (fun file => readDocument file.content) =
      [some ⟨[inkTable, paintTable], [], []⟩].map .ok := by decide +kernel

theorem readable_one : ((fromDirectory "defs").reading "one").Readable twoOrders [] where
  given := ⟨"one", rfl⟩
  directory := by decide +kernel
  short := not_overlong ["one"] rfl (by decide) (by decide +kernel)
  documents := loads_of_read read_one
  staffed := nofun

theorem readable_two : ((fromDirectory "defs").reading "two").Readable twoOrders [] where
  given := ⟨"two", rfl⟩
  directory := by decide +kernel
  short := not_overlong ["two"] rfl (by decide) (by decide +kernel)
  documents := loads_of_read read_two
  staffed := nofun

theorem exists_agreeing_reports_twoOrders :
    ((fromDirectory "defs").reading "one").Readable twoOrders [] ∧
    ((fromDirectory "defs").reading "two").Readable twoOrders [] ∧
    SameDefinitions (collectionsOf (((fromDirectory "defs").reading "one").documents twoOrders []))
      (collectionsOf (((fromDirectory "defs").reading "two").documents twoOrders [])) ∧
    ∃ first second : Report,
      (generate ((fromDirectory "defs").reading "one") acceptAll true twoOrders []).outcome =
        .ok first ∧
      (generate ((fromDirectory "defs").reading "two") acceptAll true twoOrders []).outcome =
        .ok second ∧
      first.Agree (fromDirectory "defs")
        (((fromDirectory "defs").reading "one").emission acceptAll twoOrders [])
        (((fromDirectory "defs").reading "two").emission acceptAll twoOrders []) second := by
  have same : SameDefinitions
      (collectionsOf (((fromDirectory "defs").reading "one").documents twoOrders []))
      (collectionsOf (((fromDirectory "defs").reading "two").documents twoOrders [])) := by
    rw [collectionsOf_of_read read_one, collectionsOf_of_read read_two]
    exact ⟨by decide, by decide, by decide⟩
  exact ⟨readable_one, readable_two, same,
    exists_agreeing_reports readable_one readable_two same acceptAll⟩

end Sample

end SchemaScript
