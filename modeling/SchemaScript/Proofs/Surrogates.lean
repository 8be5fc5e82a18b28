import SchemaScript.Proofs.Documents
import SchemaScript.Proofs.Grammar
import SchemaScript.Proofs.History
import SchemaScript.Proofs.Sections

/-!
Where the lone surrogates of a script come from. A definition has none if the value that it is read
from has none, and what a script creates is what the documents define. A script that cannot be
encoded therefore has a header or a document that is not Unicode text.
-/

namespace SchemaScript

open Checked Value

structure Collection.IsUnicode (collection : Collection) : Prop where
  enums : ∀ definition ∈ collection.enums, definition.isUnicode = true
  composites : ∀ definition ∈ collection.composites, definition.isUnicode = true
  tables : ∀ definition ∈ collection.tables, definition.isUnicode = true

section Check

variable {α : Type} {check : Value → Checked α} {entries : List (Value × Value)}
  {heading : Heading} {good : α → Prop}

def ReadsUnicode (check : Value → Checked α) (good : α → Prop) : Prop :=
  ∀ value a, value.isUnicode = true → check value = .valid a → good a

theorem isUnicode_of_items? {value : Value} {items : List Value} (unicode : value.isUnicode = true)
    (found : items? value = some items) : ∀ item ∈ items, item.isUnicode = true := by
  cases value with
  | list _ | set _ =>
    cases found
    exact areUnicode_iff.1 unicode
  | pair first second =>
    cases found
    simpa [Value.isUnicode] using unicode
  | _ => cases found

theorem ReadsUnicode.list (reads : ReadsUnicode check good) :
    ReadsUnicode (checkList check) fun as => ∀ a ∈ as, good a := by
  intro value as unicode done a member
  obtain ⟨items, found, each⟩ := checkList_eq_valid.1 done
  obtain ⟨i, inside, rfl⟩ := List.getElem_of_mem member
  have item := List.getElem_mem (l := items) (each.length_eq ▸ inside)
  exact reads _ _ (isUnicode_of_items? unicode found _ item) (each.get _ inside)

theorem ReadsUnicode.mapping {part : Part} {check : List (Value × Value) → Checked α}
    (reads : ∀ entries a, entriesAreUnicode entries = true → check entries = .valid a → good a) :
    ReadsUnicode (checkMapping part · check) good := by
  intro value a unicode done
  obtain ⟨entries, rfl, done⟩ := checkMapping_eq_valid.1 done
  exact reads entries a unicode done

theorem ReadsUnicode.optional {name : String} {default a : α} (reads : ReadsUnicode check good)
    (plain : good default) (unicode : entriesAreUnicode entries = true)
    (done : optional entries name default check = .valid a) : good a := by
  unfold SchemaScript.optional at done
  cases found : field? entries name with
  | none =>
    rw [found] at done
    cases done
    exact plain
  | some value =>
    rw [found] at done
    exact reads value a (entriesAreUnicode_iff.1 unicode _ (mem_of_field? found)).2
      (within_eq_valid.1 done)

theorem isUnicode_of_checkHeading (unicode : entriesAreUnicode entries = true)
    (done : checkHeading entries = .valid heading) : heading.isUnicode = true := by
  simp only [checkHeading, seq_eq_valid, map_eq_valid] at done
  obtain ⟨_, _, ⟨_, _, ⟨_, _, rfl⟩, _, rfl⟩, _, rfl⟩ := done
  exact unicode

theorem readsUnicode_checkEnum : ReadsUnicode checkEnum (·.isUnicode = true) := by
  refine ReadsUnicode.mapping fun entries enum unicode done => ?_
  simp only [withFaults_eq_valid, seq_eq_valid, map_eq_valid] at done
  obtain ⟨⟨_, _, ⟨_, hasHeading, rfl⟩, _, rfl⟩, -⟩ := done
  exact isUnicode_of_checkHeading unicode hasHeading

theorem readsUnicode_checkComposite : ReadsUnicode checkComposite (·.isUnicode = true) := by
  refine ReadsUnicode.mapping fun entries composite unicode done => ?_
  simp only [andThen_eq_valid, withFaults_eq_valid, seq_eq_valid, map_eq_valid] at done
  obtain ⟨_, ⟨⟨_, _, ⟨_, hasHeading, rfl⟩, _, rfl⟩, -⟩, made⟩ := done
  obtain ⟨same, -⟩ := isValid_compositeOf made
  exact same ▸ isUnicode_of_checkHeading unicode hasHeading

theorem readsUnicode_checkTable : ReadsUnicode checkTable (·.isUnicode = true) := by
  refine ReadsUnicode.mapping fun entries table unicode done => ?_
  simp only [andThen_eq_valid, withFaults_eq_valid, seq_eq_valid, map_eq_valid] at done
  obtain ⟨_, ⟨⟨_, _, ⟨_, _, ⟨_, hasHeading, rfl⟩, _, rfl⟩, _, rfl⟩, -⟩, made⟩ := done
  obtain ⟨same, -⟩ := isValid_tableOf made
  exact same ▸ isUnicode_of_checkHeading unicode hasHeading

theorem readsUnicode_checkCollection : ReadsUnicode checkCollection Collection.IsUnicode := by
  refine ReadsUnicode.mapping fun entries collection unicode done => ?_
  have kept : entriesAreUnicode (entries.filter fun entry => !isNull entry.2) = true :=
    entriesAreUnicode_iff.2 fun entry member =>
      entriesAreUnicode_iff.1 unicode entry (List.mem_filter.1 member).1
  simp only [withFaults_eq_valid, seq_eq_valid, map_eq_valid] at done
  obtain ⟨⟨_, _, ⟨_, _, ⟨_, hasTables, rfl⟩, hasComposites, rfl⟩, hasEnums, rfl⟩, -⟩ := done
  constructor
  · exact readsUnicode_checkEnum.list.optional (by simp) kept hasEnums
  · exact readsUnicode_checkComposite.list.optional (by simp) kept hasComposites
  · exact readsUnicode_checkTable.list.optional (by simp) kept hasTables

end Check

/-- A document with an escape that spells no character. -/
def SourceFile.HasSurrogates (file : SourceFile) : Prop :=
  ∃ chars value, Text.Utf8.decode file.content = .ok chars ∧
    Yaml.read (Text.unifyNewlines chars) = .ok value ∧ value.isUnicode = false

theorem isUnicode_of_readDocument {file : SourceFile} {collection? : Option Collection}
    (clean : ¬ file.HasSurrogates) (read : readDocument file.content = .ok collection?) :
    (collection?.getD .empty).IsUnicode := by
  rw [readDocument] at read
  cases decoded : Text.Utf8.decode file.content with
  | error fault =>
    rw [decoded] at read
    cases read
  | ok chars =>
    rw [decoded] at read
    cases formed : Yaml.read (Text.unifyNewlines chars) with
    | error fault =>
      simp only [Except.mapError, formed, bind, Except.bind] at read
      cases read
    | ok value =>
      have unicode : value.isUnicode = true :=
        Bool.of_not_eq_false fun broken => clean ⟨chars, value, decoded, formed, broken⟩
      simp only [Except.mapError, formed, bind, Except.bind] at read
      split at read
      · cases read
        exact ⟨nofun, nofun, nofun⟩
      · split at read
        · next valid =>
          cases read
          exact readsUnicode_checkCollection _ _ unicode valid
        · cases read
      · cases read

theorem isUnicode_of_mem_collectionsOf {files : List SourceFile}
    (clean : ∀ file ∈ files, ¬ file.HasSurrogates) :
    ∀ collection ∈ collectionsOf files, collection.IsUnicode := by
  intro collection listed
  obtain ⟨file, member, made⟩ := List.mem_filterMap.1 listed
  cases read : readDocument file.content with
  | error fault =>
    rw [read] at made
    cases made
  | ok collection? =>
    rw [read] at made
    cases made
    exact isUnicode_of_readDocument (clean file member) read

theorem Emission.isUnicode_ofCatalog {collections : List Collection} {catalog : Catalog}
    {filter : NameFilter} {emission : Emission}
    (merged : Catalog.empty.merge collections = .ok catalog)
    (emitted : Emission.ofCatalog catalog filter = .ok emission)
    (unicode : ∀ collection ∈ collections, collection.IsUnicode) : emission.isUnicode = true := by
  obtain ⟨enums, composites, tables⟩ := Catalog.extends_merge merged
  obtain ⟨_, _, hc, ht, listed⟩ := exists_objects_eq emitted
  refine List.all_eq_true.2 fun object member => ?_
  have candidates := knows_of_mem_candidates hc ht
  have known := candidates object
    ((mem_distinctBy (Catalog.distinguished candidates)).1 (listed ▸ member))
  cases object with
  | schema name => rfl
  | enum definition =>
    rw [Catalog.knows_enum, enums] at known
    obtain ⟨collection, inside, defined⟩ := List.mem_flatMap.1 known
    exact (unicode collection inside).enums definition defined
  | composite definition =>
    rw [Catalog.knows_composite, composites] at known
    obtain ⟨collection, inside, defined⟩ := List.mem_flatMap.1 known
    exact (unicode collection inside).composites definition defined
  | table definition =>
    rw [Catalog.knows_table, tables] at known
    obtain ⟨collection, inside, defined⟩ := List.mem_flatMap.1 known
    exact (unicode collection inside).tables definition defined

theorem Settings.MeetsSurrogates.exists_source {settings : Settings} {filter : NameFilter}
    {tree : FileTree} {workplace : Location}
    (met : settings.MeetsSurrogates filter tree workplace) :
    (∃ header ∈ settings.header, header.isUnicode = false) ∨
      ∃ file ∈ settings.documents tree workplace, file.HasSurrogates := by
  obtain ⟨path, report, _, shown, broken, _⟩ := met
  rcases generate_cases settings filter tree workplace with
    ⟨halt, halted⟩ | ⟨failure, failed⟩ | ⟨catalog, emission, made, emitted⟩
  · cases (generate_of_halt halted).symm.trans shown
  · cases (failed true).symm.trans shown
    cases broken
  · cases (generate_of_emission made emitted true).symm.trans shown
    rw [← Bool.not_eq_true, Report.rendered, Bool.and_eq_true, Option.all_eq_true] at broken
    by_contra clean
    rw [not_or, not_exists, not_exists] at clean
    rcases settings.catalog_cases tree workplace with ⟨obstacle, failed⟩ |
      ⟨collections, other, defined, merged, found⟩
    · cases failed.symm.trans made
    · cases found.symm.trans made
      obtain ⟨_, rfl⟩ := Settings.definitions_eq_ok_iff.1 defined
      refine broken ⟨Emission.isUnicode_ofCatalog merged emitted ?_, fun header given => ?_⟩
      · exact isUnicode_of_mem_collectionsOf fun file listed found =>
          clean.2 file ⟨listed, found⟩
      · exact Bool.of_not_eq_false fun loose => clean.1 header ⟨given, loose⟩

end SchemaScript
