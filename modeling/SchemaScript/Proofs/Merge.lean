import SchemaScript.Proofs.Distinct
import SchemaScript.Proofs.Lookup

/-!
Merging. Staging takes up definitions one by one; if it leaves nothing out, every category lists
what it listed before and then all definitions of the batch. The schemas are found anew from that,
so a catalog made by merging and clearing lists the schemas that its definitions mention.
-/

namespace SchemaScript

namespace NamedList

variable {α : Type} [Named α]

theorem items_stage {list : NamedList α} {items : List α} (complete : (list.stage items).2 = []) :
    (list.stage items).1.items = list.items ++ items := by
  induction items generalizing list with
  | nil => simp
  | cons item rest ih =>
    by_cases fresh : Named.qualifiedName item ∉ list.names
    · rw [stage, dif_pos fresh] at complete ⊢
      rw [ih complete, items_push, List.append_assoc, List.singleton_append]
    · rw [stage, dif_neg fresh] at complete
      cases complete

theorem stage_complete {list : NamedList α} {items : List α}
    (distinct : (list.names ++ items.map Named.qualifiedName).Nodup) :
    (list.stage items).2 = [] := by
  induction items generalizing list with
  | nil => rfl
  | cons item rest ih =>
    rw [List.map_cons, List.append_cons] at distinct
    have fresh : Named.qualifiedName item ∉ list.names := by
      have front := (List.nodup_append.1 distinct).1
      exact fun old => (List.nodup_append.1 front).2.2 _ old _ List.mem_cons_self rfl
    rw [stage, dif_pos fresh]
    exact ih (by rwa [names, items_push, List.map_append])

end NamedList

namespace Catalog

structure Extends (before after : Catalog) (collections : List Collection) : Prop where
  enums : after.enums.items = before.enums.items ++ collections.flatMap (·.enums)
  composites :
    after.composites.items = before.composites.items ++ collections.flatMap (·.composites)
  tables : after.tables.items = before.tables.items ++ collections.flatMap (·.tables)

namespace Extends

variable {before between after : Catalog} {first second collections : List Collection}

theorem refl (catalog : Catalog) : Extends catalog catalog [] := by
  constructor <;> simp

theorem trans (one : Extends before between first) (two : Extends between after second) :
    Extends before after (first ++ second) := by
  constructor
  · rw [two.enums, one.enums, List.flatMap_append, List.append_assoc]
  · rw [two.composites, one.composites, List.flatMap_append, List.append_assoc]
  · rw [two.tables, one.tables, List.flatMap_append, List.append_assoc]

theorem knows (extended : Extends before after collections) {object : SqlObject}
    (known : before.Knows object) : after.Knows object := by
  cases object with
  | schema name => exact knows_schema
  | enum definition =>
    rw [knows_enum] at known ⊢
    exact extended.enums ▸ List.mem_append_left _ known
  | composite definition =>
    rw [knows_composite] at known ⊢
    exact extended.composites ▸ List.mem_append_left _ known
  | table definition =>
    rw [knows_table] at known ⊢
    exact extended.tables ▸ List.mem_append_left _ known

theorem find?_of_find? (extended : Extends before after collections) {kind : ObjectKind}
    {name : String} {object : SqlObject} (found : before.find? kind name = some object) :
    after.find? kind name = some object := by
  obtain ⟨known, same⟩ := find?_eq_some_iff.1 found
  exact find?_eq_some_iff.2 ⟨extended.knows known, same⟩

end Extends

variable {catalog merged : Catalog} {collection : Collection} {collections : List Collection}

theorem extends_stageCollection (complete : (catalog.stageCollection collection).2 = []) :
    Extends catalog (catalog.stageCollection collection).1 [collection] := by
  simp only [stageCollection, List.append_eq_nil_iff, List.map_eq_nil_iff] at complete
  obtain ⟨⟨enums, composites⟩, tables⟩ := complete
  constructor
  · rw [List.flatMap_singleton]
    exact NamedList.items_stage enums
  · rw [List.flatMap_singleton]
    exact NamedList.items_stage composites
  · rw [List.flatMap_singleton]
    exact NamedList.items_stage tables

theorem extends_stage (complete : (catalog.stage collections).2 = []) :
    Extends catalog (catalog.stage collections).1 collections := by
  induction collections generalizing catalog with
  | nil => exact Extends.refl catalog
  | cons collection rest ih =>
    simp only [stage, List.append_eq_nil_iff] at complete
    exact (extends_stageCollection complete.1).trans (ih complete.2)

theorem merge_eq_ok_iff :
    catalog.merge collections = .ok merged ↔
      (catalog.stage collections).2 = [] ∧
        { (catalog.stage collections).1 with
          schemas := (catalog.stage collections).1.mentionedSchemas } = merged := by
  unfold merge
  cases staged : catalog.stage collections with
  | mk result duplicates =>
    cases duplicates with
    | nil => simp
    | cons duplicate rest => simp

theorem extends_merge (h : catalog.merge collections = .ok merged) :
    Extends catalog merged collections := by
  obtain ⟨complete, rfl⟩ := merge_eq_ok_iff.1 h
  obtain ⟨enums, composites, tables⟩ := extends_stage complete
  exact ⟨enums, composites, tables⟩

theorem schemas_merge (h : catalog.merge collections = .ok merged) :
    merged.schemas = merged.mentionedSchemas := by
  obtain ⟨_, rfl⟩ := merge_eq_ok_iff.1 h
  rfl

structure Admits (catalog : Catalog) (collections : List Collection) : Prop where
  enums : (catalog.enums.names ++ (collections.flatMap (·.enums)).map Named.qualifiedName).Nodup
  composites :
    (catalog.composites.names ++ (collections.flatMap (·.composites)).map Named.qualifiedName).Nodup
  tables : (catalog.tables.names ++ (collections.flatMap (·.tables)).map Named.qualifiedName).Nodup

theorem Extends.admits (extended : Extends catalog merged collections) :
    catalog.Admits collections where
  enums := by
    rw [NamedList.names, ← List.map_append, ← extended.enums]
    exact merged.enums.nodup
  composites := by
    rw [NamedList.names, ← List.map_append, ← extended.composites]
    exact merged.composites.nodup
  tables := by
    rw [NamedList.names, ← List.map_append, ← extended.tables]
    exact merged.tables.nodup

theorem Admits.stageCollection_complete (admits : catalog.Admits (collection :: collections)) :
    (catalog.stageCollection collection).2 = [] := by
  obtain ⟨enums, composites, tables⟩ := admits
  rw [List.flatMap_cons, List.map_append, ← List.append_assoc] at enums composites tables
  have noEnum := NamedList.stage_complete (List.nodup_append.1 enums).1
  have noComposite := NamedList.stage_complete (List.nodup_append.1 composites).1
  have noTable := NamedList.stage_complete (List.nodup_append.1 tables).1
  simp only [stageCollection, noEnum, noComposite, noTable, List.map_nil, List.append_nil]

theorem Extends.admits_of_cons {after : Catalog} (extended : Extends catalog after [collection])
    (admits : catalog.Admits (collection :: collections)) : after.Admits collections := by
  obtain ⟨enums, composites, tables⟩ := extended
  rw [List.flatMap_singleton] at enums composites tables
  constructor
  · rw [NamedList.names, enums, List.map_append, List.append_assoc, ← List.map_append]
    exact admits.enums
  · rw [NamedList.names, composites, List.map_append, List.append_assoc, ← List.map_append]
    exact admits.composites
  · rw [NamedList.names, tables, List.map_append, List.append_assoc, ← List.map_append]
    exact admits.tables

theorem Admits.stage_complete (admits : catalog.Admits collections) :
    (catalog.stage collections).2 = [] := by
  induction collections generalizing catalog with
  | nil => rfl
  | cons collection rest ih =>
    have first := admits.stageCollection_complete
    have later := ih ((extends_stageCollection first).admits_of_cons admits)
    simp only [stage, first, later, List.append_nil]

/-- Collections are merged exactly if no category gets a name twice. -/
theorem exists_merge_iff :
    (∃ merged, catalog.merge collections = .ok merged) ↔ catalog.Admits collections := by
  constructor
  · rintro ⟨merged, done⟩
    exact (extends_merge done).admits
  · intro admits
    exact ⟨_, merge_eq_ok_iff.2 ⟨admits.stage_complete, rfl⟩⟩

theorem eq_of_items {a b : Catalog} (enums : a.enums.items = b.enums.items)
    (composites : a.composites.items = b.composites.items)
    (tables : a.tables.items = b.tables.items) (schemas : a.schemas = b.schemas) : a = b := by
  cases a
  cases b
  cases NamedList.ext_items enums
  cases NamedList.ext_items composites
  cases NamedList.ext_items tables
  cases schemas
  rfl

theorem mentionedSchemas_congr {a b : Catalog} (enums : a.enums.items = b.enums.items)
    (composites : a.composites.items = b.composites.items)
    (tables : a.tables.items = b.tables.items) : a.mentionedSchemas = b.mentionedSchemas := by
  rw [mentionedSchemas, mentionedSchemas, headings, headings, enums, composites, tables]

/-- Merging leads to the one catalog that lists the definitions and the schemas they mention. -/
theorem merge_eq_ok_iff_extends :
    catalog.merge collections = .ok merged ↔
      Extends catalog merged collections ∧ merged.schemas = merged.mentionedSchemas := by
  constructor
  · exact fun done => ⟨extends_merge done, schemas_merge done⟩
  · rintro ⟨extended, schemas⟩
    obtain ⟨made, done⟩ := exists_merge_iff.2 extended.admits
    obtain ⟨enums, composites, tables⟩ := extends_merge done
    have sameEnums := enums.trans extended.enums.symm
    have sameComposites := composites.trans extended.composites.symm
    have sameTables := tables.trans extended.tables.symm
    have mentioned := mentionedSchemas_congr sameEnums sameComposites sameTables
    have sameSchemas : made.schemas = merged.schemas := by
      rw [schemas_merge done, schemas, mentioned]
    rw [done, eq_of_items sameEnums sameComposites sameTables sameSchemas]

theorem ne_nil_of_merge_error {duplicates : List Duplicate}
    (refused : catalog.merge collections = .error duplicates) : duplicates ≠ [] := by
  unfold merge at refused
  split at refused
  · cases refused
  · next repeated _ =>
    cases refused
    rintro rfl
    exact repeated rfl

/-- What is made of the empty catalog by merging collections and clearing. -/
inductive Reachable : Catalog → Prop
  | empty : Reachable empty
  | merge {before after : Catalog} {collections : List Collection} (reachable : Reachable before)
      (merged : before.merge collections = .ok after) : Reachable after
  | clear {before : Catalog} (reachable : Reachable before) : Reachable before.clear

theorem Reachable.schemas_eq (reachable : catalog.Reachable) :
    catalog.schemas = catalog.mentionedSchemas := by
  cases reachable with
  | empty => rfl
  | merge _ merged => exact schemas_merge merged
  | clear _ => rfl

theorem mentionedSchemas_eq_eraseDups (catalog : Catalog) :
    catalog.mentionedSchemas = (catalog.headings.map (·.schema)).eraseDups :=
  distinctBy_id_eq_eraseDups _

theorem Reachable.nodup_schemas (reachable : catalog.Reachable) : catalog.schemas.Nodup := by
  rw [reachable.schemas_eq, mentionedSchemas_eq_eraseDups]
  exact nodup_eraseDups _

theorem Reachable.mem_schemas_iff (reachable : catalog.Reachable) {schema : Identifier} :
    schema ∈ catalog.schemas ↔ ∃ heading ∈ catalog.headings, heading.schema = schema := by
  rw [reachable.schemas_eq, mentionedSchemas_eq_eraseDups, List.mem_eraseDups, List.mem_map]

end Catalog

namespace Sample

def sales : Identifier := ⟨"sales", by decide⟩

def color : EnumType := ⟨⟨sales, ⟨"color", by decide⟩, "", true⟩, ["red", "green"], by decide⟩

def money : CompositeType where
  schema := sales
  name := ⟨"money", by decide⟩
  comment := ""
  columns := [⟨.reference "sales.color", ⟨"shade", by decide⟩, true, "", false⟩]
  no_identity := by decide

def orders : Table where
  schema := sales
  name := ⟨"orders", by decide⟩
  comment := ""
  options := ⟨false⟩
  columns := [⟨.literal "bigint", ⟨"id", by decide⟩, true, "", false⟩,
    ⟨.reference "sales.money", ⟨"total", by decide⟩, true, "", false⟩,
    ⟨.reference "sales.color", ⟨"color", by decide⟩, false, "", false⟩]
  columns_ne_nil := by decide
  one_identity := by decide

def catalog : Catalog where
  enums := ⟨[color], by decide⟩
  composites := ⟨[money], by decide⟩
  tables := ⟨[orders], by decide⟩
  schemas := [sales]

theorem reachable : catalog.Reachable :=
  .merge .empty (show Catalog.empty.merge [⟨[orders], [money], [color]⟩] = .ok catalog by decide)

end Sample

end SchemaScript
