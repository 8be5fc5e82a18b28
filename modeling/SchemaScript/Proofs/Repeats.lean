import SchemaScript.Proofs.CreationOrder
import SchemaScript.Proofs.Paths
import SchemaScript.Proofs.Staging

/-!
What a refused merge reports. The definitions of a batch are taken up in the order of its
collections; each that has the category, schema and name of an earlier one, or of one that the
catalog has already, is reported, and nothing else is.
-/

namespace SchemaScript

def Collection.objects (collection : Collection) : List SqlObject :=
  collection.enums.map .enum ++ collection.composites.map .composite ++
    collection.tables.map .table

def objectsOf (collections : List Collection) : List SqlObject :=
  collections.flatMap (·.objects)

@[simp] theorem enum_mem_objectsOf {collections : List Collection} {definition : EnumType} :
    .enum definition ∈ objectsOf collections ↔
      definition ∈ collections.flatMap (·.enums) := by
  simp [objectsOf, Collection.objects]

@[simp] theorem composite_mem_objectsOf {collections : List Collection}
    {definition : CompositeType} :
    .composite definition ∈ objectsOf collections ↔
      definition ∈ collections.flatMap (·.composites) := by
  simp [objectsOf, Collection.objects]

@[simp] theorem table_mem_objectsOf {collections : List Collection} {definition : Table} :
    .table definition ∈ objectsOf collections ↔
      definition ∈ collections.flatMap (·.tables) := by
  simp [objectsOf, Collection.objects]

def Duplicate.key (duplicate : Duplicate) : ObjectKey :=
  ⟨duplicate.category, duplicate.name.text⟩

theorem Duplicate.key_mk_inj {kind other : ObjectKind} {a b : QualifiedName} :
    Duplicate.key ⟨kind, a⟩ = Duplicate.key ⟨other, b⟩ ↔ kind = other ∧ a = b := by
  simp only [Duplicate.key, ObjectKey.mk.injEq]
  exact and_congr_right fun _ => ⟨QualifiedName.text_injective, congrArg _⟩

def keysOfKind (kind : ObjectKind) (names : List QualifiedName) : List ObjectKey :=
  names.map fun name => Duplicate.key ⟨kind, name⟩

theorem mem_keysOfKind_iff {kind other : ObjectKind} {names : List QualifiedName}
    {name : QualifiedName} :
    Duplicate.key ⟨other, name⟩ ∈ keysOfKind kind names ↔ other = kind ∧ name ∈ names := by
  simp only [keysOfKind, List.mem_map, Duplicate.key_mk_inj]
  constructor
  · rintro ⟨_, listed, rfl, rfl⟩
    exact ⟨rfl, listed⟩
  · rintro ⟨rfl, listed⟩
    exact ⟨name, listed, rfl, rfl⟩

theorem keys_map {α : Type} [Named α] (make : α → SqlObject) (kind : ObjectKind)
    (keyed : ∀ item, (make item).key = Duplicate.key ⟨kind, Named.qualifiedName item⟩)
    (items : List α) :
    (items.map make).map (·.key) = keysOfKind kind (items.map Named.qualifiedName) := by
  simp only [keysOfKind, List.map_map, Function.comp_def, keyed]

theorem mem_keysOfKind_stage {α : Type} [Named α] {kind : ObjectKind} {list : NamedList α}
    {items : List α} {key : ObjectKey} :
    key ∈ keysOfKind kind (list.stage items).1.names ↔
      key ∈ keysOfKind kind list.names ∨ key ∈ keysOfKind kind (items.map Named.qualifiedName) := by
  rw [← List.mem_append, keysOfKind, keysOfKind, keysOfKind, ← List.map_append, List.mem_map,
    List.mem_map]
  simp only [NamedList.mem_names_stage]

theorem keys_stage_eq {α : Type} [Named α] {make : α → SqlObject} {kind : ObjectKind}
    (keyed : ∀ item, (make item).key = Duplicate.key ⟨kind, Named.qualifiedName item⟩)
    {list : NamedList α} {known : List ObjectKey}
    (before : ∀ name, Duplicate.key ⟨kind, name⟩ ∈ known ↔ name ∈ list.names) (items : List α) :
    ((list.stage items).2.map (Duplicate.mk kind)).map (·.key) =
      (repeatsFrom (·.key) known (items.map make)).map (·.key) := by
  have told : ∀ a b, (make a).key = (make b).key ↔
      Named.qualifiedName a = Named.qualifiedName b := by
    intro a b
    rw [keyed, keyed, Duplicate.key_mk_inj, and_iff_right rfl]
  rw [repeatsFrom_map told fun a => by rw [keyed, before], NamedList.stage_eq_repeatsFrom]
  simp only [List.map_map, Function.comp_def, keyed]

theorem Collection.keys_objects (collection : Collection) :
    collection.objects.map (·.key) =
      keysOfKind .enum (collection.enums.map Named.qualifiedName) ++
        keysOfKind .composite (collection.composites.map Named.qualifiedName) ++
        keysOfKind .table (collection.tables.map Named.qualifiedName) := by
  simp only [objects, keysOfKind, List.map_append, List.map_map]
  rfl

namespace Catalog

variable {catalog : Catalog} {collection : Collection} {collections : List Collection}

theorem keys_objects (catalog : Catalog) :
    catalog.objects.map (·.key) =
      keysOfKind .enum catalog.enums.names ++ keysOfKind .composite catalog.composites.names ++
        keysOfKind .table catalog.tables.names := by
  simp only [objects, NamedList.names, keysOfKind, List.map_append, List.map_map]
  rfl

theorem mem_keys_stageCollection {key : ObjectKey} :
    key ∈ (catalog.stageCollection collection).1.objects.map (·.key) ↔
      key ∈ catalog.objects.map (·.key) ++ collection.objects.map (·.key) := by
  rw [List.mem_append, keys_objects, keys_objects, Collection.keys_objects]
  simp only [stageCollection, List.mem_append, mem_keysOfKind_stage]
  tauto

theorem keys_stageCollection (catalog : Catalog) (collection : Collection) :
    (catalog.stageCollection collection).2.map (·.key) =
      (repeatsFrom (·.key) (catalog.objects.map (·.key)) collection.objects).map (·.key) := by
  have enumKeys := keys_map SqlObject.enum .enum (fun _ => rfl) collection.enums
  have compositeKeys := keys_map SqlObject.composite .composite (fun _ => rfl) collection.composites
  -- The categories are staged one after the other, each against the names it had itself. Of all
  -- keys that stand before its definitions, those of another kind can be left in.
  have enums : ∀ name, Duplicate.key ⟨.enum, name⟩ ∈ catalog.objects.map (·.key) ↔
      name ∈ catalog.enums.names := by
    simp [keys_objects, mem_keysOfKind_iff]
  have composites : ∀ name, Duplicate.key ⟨.composite, name⟩ ∈ catalog.objects.map (·.key) ++
      (collection.enums.map SqlObject.enum).map (·.key) ↔ name ∈ catalog.composites.names := by
    rw [keys_objects, enumKeys]
    simp [mem_keysOfKind_iff]
  have tables : ∀ name, Duplicate.key ⟨.table, name⟩ ∈ catalog.objects.map (·.key) ++
      (collection.enums.map SqlObject.enum ++
        collection.composites.map SqlObject.composite).map (·.key) ↔
          name ∈ catalog.tables.names := by
    rw [keys_objects, List.map_append, enumKeys, compositeKeys]
    simp [mem_keysOfKind_iff]
  rw [Collection.objects, repeatsFrom_append, repeatsFrom_append, List.map_append, List.map_append,
    ← keys_stage_eq (fun _ => rfl) enums, ← keys_stage_eq (fun _ => rfl) composites,
    ← keys_stage_eq (fun _ => rfl) tables, ← List.map_append, ← List.map_append]
  rfl

/-- Staging leaves out what repeats the key of a definition before it, and that in its order. -/
theorem keys_stage (catalog : Catalog) (collections : List Collection) :
    (catalog.stage collections).2.map (·.key) =
      (repeatsFrom (·.key) (catalog.objects.map (·.key)) (objectsOf collections)).map (·.key) := by
  induction collections generalizing catalog with
  | nil => rfl
  | cons collection rest ih =>
    rw [objectsOf, List.flatMap_cons, repeatsFrom_append, List.map_append, ← keys_stageCollection,
      ← repeatsFrom_congr fun key => mem_keys_stageCollection, ← objectsOf, ← ih, ← List.map_append]
    rfl

theorem nodup_keysOfKind {α : Type} [Named α] (kind : ObjectKind) (list : NamedList α) :
    (keysOfKind kind list.names).Nodup :=
  list.nodup.map fun _ _ same => (Duplicate.key_mk_inj.1 same).2

theorem disjoint_keysOfKind {kind other : ObjectKind} (apart : kind ≠ other)
    (names more : List QualifiedName) :
    ∀ key ∈ keysOfKind kind names, ∀ key' ∈ keysOfKind other more, key ≠ key' := by
  rintro _ one _ two rfl
  obtain ⟨name, _, rfl⟩ := List.mem_map.1 one
  exact apart (mem_keysOfKind_iff.1 two).1

theorem nodup_keys_objects (catalog : Catalog) : (catalog.objects.map (·.key)).Nodup := by
  rw [keys_objects, List.append_assoc]
  have later : (keysOfKind .composite catalog.composites.names ++
      keysOfKind .table catalog.tables.names).Nodup :=
    List.nodup_append.2
      ⟨nodup_keysOfKind _ _, nodup_keysOfKind _ _, disjoint_keysOfKind (by decide) _ _⟩
  refine List.nodup_append.2 ⟨nodup_keysOfKind _ _, later, ?_⟩
  intro key one other two
  rcases List.mem_append.1 two with composite | table
  · exact disjoint_keysOfKind (by decide) _ _ key one other composite
  · exact disjoint_keysOfKind (by decide) _ _ key one other table

end Catalog

def SqlObject.Namesake (object other : SqlObject) : Prop :=
  object.kind = other.kind ∧ ∃ heading another : Heading,
    object.heading? = some heading ∧ other.heading? = some another ∧
      heading.schema = another.schema ∧ heading.name = another.name

theorem SqlObject.key_eq_iff_namesake {object other : SqlObject} {heading : Heading}
    (defined : object.heading? = some heading) :
    object.key = other.key ↔ object.Namesake other := by
  have named : ∀ {object : SqlObject} {heading : Heading}, object.heading? = some heading →
      object.name = heading.qualifiedName.text := by
    intro object heading defined
    cases object <;> cases defined <;> rfl
  constructor
  · intro same
    obtain ⟨kinds, names⟩ := ObjectKey.mk.inj same
    obtain ⟨another, alsoDefined⟩ : ∃ another, other.heading? = some another := by
      cases other with
      | schema name => cases object <;> cases defined <;> cases kinds
      | enum definition => exact ⟨_, rfl⟩
      | composite definition => exact ⟨_, rfl⟩
      | table definition => exact ⟨_, rfl⟩
    rw [named defined, named alsoDefined] at names
    obtain ⟨schemas, names⟩ := QualifiedName.mk.inj (QualifiedName.text_injective names)
    exact ⟨kinds, heading, another, defined, alsoDefined, schemas, names⟩
  · rintro ⟨kinds, heading, another, one, two, schemas, names⟩
    refine congrArg₂ ObjectKey.mk kinds ?_
    rw [named one, named two, Heading.qualifiedName, Heading.qualifiedName, schemas, names]

theorem exists_heading_of_mem {object : SqlObject} {enums : List EnumType}
    {composites : List CompositeType} {tables : List Table}
    (listed : object ∈ enums.map .enum ++ composites.map .composite ++ tables.map .table) :
    ∃ heading, object.heading? = some heading := by
  cases object with
  | schema name => simp at listed
  | enum definition => exact ⟨_, rfl⟩
  | composite definition => exact ⟨_, rfl⟩
  | table definition => exact ⟨_, rfl⟩

namespace Catalog

variable {catalog : Catalog} {collections : List Collection} {duplicates : List Duplicate}

theorem exists_heading {object : SqlObject}
    (listed : object ∈ catalog.objects ++ objectsOf collections) :
    ∃ heading, object.heading? = some heading := by
  rcases List.mem_append.1 listed with known | added
  · exact exists_heading_of_mem known
  · obtain ⟨collection, _, stands⟩ := List.mem_flatMap.1 added
    exact exists_heading_of_mem stands

theorem keys_of_merge_error (refused : catalog.merge collections = .error duplicates) :
    duplicates.map (·.key) = (repeatsFrom (·.key) (catalog.objects.map (·.key))
      (objectsOf collections)).map (·.key) := by
  obtain ⟨rfl, _⟩ := merge_eq_error_iff.1 refused
  exact keys_stage catalog collections

theorem exists_merge_error_iff :
    (∃ duplicates, catalog.merge collections = .error duplicates) ↔
      repeatsFrom (·.key) (catalog.objects.map (·.key)) (objectsOf collections) ≠ [] := by
  have keys := keys_stage catalog collections
  simp only [merge_eq_error_iff, exists_eq_left', ne_eq]
  rw [← List.map_eq_nil_iff (f := Duplicate.key), keys, List.map_eq_nil_iff]

theorem count_of_merge_error (refused : catalog.merge collections = .error duplicates)
    (key : ObjectKey) :
    (duplicates.map (·.key)).count key =
      ((catalog.objects ++ objectsOf collections).map (·.key)).count key - 1 := by
  have once : (catalog.objects.map (·.key)).count key =
      if key ∈ catalog.objects.map (·.key) then 1 else 0 := (nodup_keys_objects catalog).count
  rw [keys_of_merge_error refused, count_repeatsFrom, List.map_append, List.count_append, once]
  split <;> omega

/-- A merge is refused for definitions that repeat the name of another one in their category, and
all of these are reported. -/
structure ReportsRepeats (catalog : Catalog) (collections : List Collection) : Prop where
  refused_iff : (∃ duplicates, catalog.merge collections = .error duplicates) ↔
    ∃ before object after, objectsOf collections = before ++ object :: after ∧
      ∃ other ∈ catalog.objects ++ before, object.Namesake other
  reported : ∀ duplicates, catalog.merge collections = .error duplicates →
    duplicates.map (·.key) = (repeatsFrom (·.key) (catalog.objects.map (·.key))
      (objectsOf collections)).map (·.key)
  /-- All occurrences of a name in its category are reported but the first, which the catalog may
  have. -/
  times : ∀ duplicates, catalog.merge collections = .error duplicates → ∀ key,
    (duplicates.map (·.key)).count key =
      ((catalog.objects ++ objectsOf collections).map (·.key)).count key - 1
  apart : ∀ duplicates, catalog.merge collections = .error duplicates → ∀ kind name,
    ((catalog.objects ++ objectsOf collections).map (·.key)).count ⟨kind, name⟩ ≤ 1 →
      ⟨kind, name⟩ ∉ duplicates.map (·.key)
  told_apart : ∀ object ∈ catalog.objects ++ objectsOf collections, ∀ other : SqlObject,
    object.key = other.key ↔ object.Namesake other

theorem reportsRepeats (catalog : Catalog) (collections : List Collection) :
    ReportsRepeats catalog collections where
  refused_iff := by
    rw [exists_merge_error_iff, repeatsFrom_ne_nil_iff]
    refine exists_congr fun before => exists_congr fun object => exists_congr fun after =>
      and_congr_right fun split => ?_
    have listed : object ∈ catalog.objects ++ objectsOf collections := by
      rw [split]
      simp
    obtain ⟨heading, defined⟩ := exists_heading listed
    rw [← List.map_append, List.mem_map]
    refine exists_congr fun other => and_congr_right fun _ => ?_
    rw [eq_comm, SqlObject.key_eq_iff_namesake defined]
  reported duplicates := keys_of_merge_error
  times duplicates refused key := count_of_merge_error refused key
  apart duplicates refused kind name once := by
    rw [← List.count_eq_zero, count_of_merge_error refused]
    omega
  told_apart object listed other := by
    obtain ⟨heading, defined⟩ := exists_heading listed
    exact SqlObject.key_eq_iff_namesake defined

end Catalog

namespace Sample

example : catalog.merge [⟨[orders, offers], [offer], []⟩, ⟨[orders], [], [color]⟩] =
    .error [⟨.table, orders.qualifiedName⟩, ⟨.enum, color.qualifiedName⟩,
      ⟨.table, orders.qualifiedName⟩] := by decide

end Sample

end SchemaScript
