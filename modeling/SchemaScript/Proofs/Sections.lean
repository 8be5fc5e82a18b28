import SchemaScript.Proofs.Merge
import SchemaScript.Proofs.Reach

/-!
The sections of a script. Together they list, without repeats, what the catalog offers for each of
them. Schemas come first, and all that follows them is defined in the catalog.
-/

namespace SchemaScript

theorem objects_withoutRepeats (seen : List ObjectKey) (sections : List Section) :
    (withoutRepeats seen sections).flatMap (·.objects) =
      distinctFrom (·.key) seen (sections.flatMap (·.objects)) := by
  induction sections generalizing seen with
  | nil => rfl
  | cons part rest ih =>
    rw [withoutRepeats, List.flatMap_cons, List.flatMap_cons, distinctFrom_append, ih]

namespace Catalog

variable {catalog : Catalog} {filter : NameFilter}

theorem Reachable.nodup_schema_keys (reachable : catalog.Reachable) :
    ((catalog.schemas.map fun schema => SqlObject.schema schema.text).map (·.key)).Nodup := by
  rw [List.map_map, List.Nodup, List.pairwise_map]
  refine reachable.nodup_schemas.imp fun {a b} different same => different ?_
  exact Identifier.ext_text (ObjectKey.mk.inj same).2

theorem Reachable.schemaObjects_eq (reachable : catalog.Reachable) :
    catalog.schemaObjects acceptAll =
      catalog.schemas.map fun schema => SqlObject.schema schema.text := by
  rw [schemaObjects, List.filter_eq_self.2 (by simp [acceptAll])]
  exact distinctFrom_eq_self reachable.nodup_schema_keys fun _ _ => List.not_mem_nil

theorem mem_selection_iff {α : Type} {make : α → SqlObject} {items : List α} {object : SqlObject} :
    object ∈ ((items.map make).filter fun o => filter o.name) ↔
      ∃ definition ∈ items, filter (make definition).name = true ∧ object = make definition := by
  rw [List.mem_filter, List.mem_map]
  constructor
  · rintro ⟨⟨definition, listed, rfl⟩, accepted⟩
    exact ⟨definition, listed, accepted, rfl⟩
  · rintro ⟨definition, listed, accepted, rfl⟩
    exact ⟨⟨definition, listed, rfl⟩, accepted⟩

theorem exists_of_mem_schemaObjects {object : SqlObject}
    (h : object ∈ catalog.schemaObjects filter) : ∃ name, object = .schema name := by
  obtain ⟨schema, _, _, rfl⟩ := mem_selection_iff.1 ((distinctFrom_sublist _ _).subset h)
  exact ⟨schema.text, rfl⟩

theorem enumObjects_eq (catalog : Catalog) (filter : NameFilter) :
    catalog.enumObjects filter =
      (catalog.enums.items.map SqlObject.enum).filter fun o => filter o.name := by
  have nodup := nodup_keys_of_items SqlObject.enum .enum (fun _ => rfl) catalog.enums
  refine distinctFrom_eq_self ?_ fun _ _ => List.not_mem_nil
  exact (List.filter_sublist.map _).nodup nodup

theorem enumObjects_subset : catalog.enumObjects filter ⊆ catalog.objects := by
  rw [enumObjects_eq]
  intro object h
  obtain ⟨definition, listed, _, rfl⟩ := mem_selection_iff.1 h
  exact enum_mem_objects.2 listed

theorem compositeRoots_subset : catalog.compositeRoots filter ⊆ catalog.objects := by
  intro object h
  obtain ⟨definition, listed, _, rfl⟩ := mem_selection_iff.1 h
  exact composite_mem_objects.2 listed

theorem tableRoots_subset : catalog.tableRoots filter ⊆ catalog.objects := by
  intro object h
  obtain ⟨definition, listed, _, rfl⟩ := mem_selection_iff.1 h
  exact table_mem_objects.2 listed

theorem expand_subset {roots objects : List SqlObject} (known : roots ⊆ catalog.objects)
    (expanded : catalog.expand roots = .ok objects) : objects ⊆ catalog.objects := by
  intro object h
  obtain ⟨root, listed, reaches⟩ := (mem_expand_iff known expanded).1 h
  exact reaches.mem_objects (known listed)

end Catalog

namespace Emission

variable {catalog : Catalog} {filter : NameFilter} {emission : Emission}

theorem ofCatalog_eq_ok_iff :
    ofCatalog catalog filter = .ok emission ↔
      ∃ composites tables,
        catalog.expand (catalog.compositeRoots filter) = .ok composites ∧
        catalog.expand (catalog.tableRoots filter) = .ok tables ∧
        emission = ⟨withoutRepeats []
          [⟨"schemas", catalog.schemaObjects acceptAll⟩, ⟨"enums", catalog.enumObjects filter⟩,
            ⟨"composites", composites⟩, ⟨"tables", tables⟩]⟩ := by
  unfold ofCatalog
  cases catalog.expand (catalog.compositeRoots filter) with
  | error cycle => simp [bind, Except.bind]
  | ok composites =>
    cases catalog.expand (catalog.tableRoots filter) with
    | error cycle => simp [bind, Except.bind]
    | ok tables => simp [bind, Except.bind, pure, Except.pure, eq_comm]

/-- A script lists once what the catalog offers for its sections. -/
theorem exists_objects_eq (built : ofCatalog catalog filter = .ok emission) :
    ∃ composites tables,
      catalog.expand (catalog.compositeRoots filter) = .ok composites ∧
      catalog.expand (catalog.tableRoots filter) = .ok tables ∧
      emission.objects = distinctBy (·.key)
        (catalog.schemaObjects acceptAll ++
          (catalog.enumObjects filter ++ (composites ++ tables))) := by
  obtain ⟨composites, tables, hc, ht, rfl⟩ := ofCatalog_eq_ok_iff.1 built
  refine ⟨composites, tables, hc, ht, ?_⟩
  rw [objects, objects_withoutRepeats]
  simp [distinctBy]

theorem knows_of_mem_candidates {composites tables : List SqlObject}
    (hc : catalog.expand (catalog.compositeRoots filter) = .ok composites)
    (ht : catalog.expand (catalog.tableRoots filter) = .ok tables) :
    ∀ object ∈ catalog.schemaObjects acceptAll ++
      (catalog.enumObjects filter ++ (composites ++ tables)), catalog.Knows object := by
  intro object h
  simp only [List.mem_append] at h
  rcases h with schema | enum | composite | table
  · obtain ⟨name, rfl⟩ := Catalog.exists_of_mem_schemaObjects schema
    exact Catalog.knows_schema
  · exact Or.inl (Catalog.enumObjects_subset enum)
  · exact Or.inl (Catalog.expand_subset Catalog.compositeRoots_subset hc composite)
  · exact Or.inl (Catalog.expand_subset Catalog.tableRoots_subset ht table)

theorem mem_objects_iff (built : ofCatalog catalog filter = .ok emission) {object : SqlObject} :
    object ∈ emission.objects ↔
      object ∈ catalog.schemaObjects acceptAll ∨ object ∈ catalog.enumObjects filter ∨
        (∃ root ∈ catalog.compositeRoots filter, catalog.Reaches root object) ∨
          ∃ root ∈ catalog.tableRoots filter, catalog.Reaches root object := by
  obtain ⟨composites, tables, hc, ht, listed⟩ := exists_objects_eq built
  rw [listed, mem_distinctBy (Catalog.distinguished (knows_of_mem_candidates hc ht)),
    ← Catalog.mem_expand_iff Catalog.compositeRoots_subset hc,
    ← Catalog.mem_expand_iff Catalog.tableRoots_subset ht]
  simp only [List.mem_append]

/-- No object of a script stands in front of what it depends on, whatever their sections. -/
theorem preceded_objects (built : ofCatalog catalog filter = .ok emission) :
    Preceded catalog.dependencies emission.objects := by
  obtain ⟨composites, tables, hc, ht, listed⟩ := exists_objects_eq built
  rw [listed]
  apply Preceded.distinctBy (Catalog.distinguished (knows_of_mem_candidates hc ht))
  refine Preceded.append ?_ (Preceded.append ?_ (Preceded.append ?_ ?_))
  · refine Preceded.of_free fun object h => ?_
    obtain ⟨name, rfl⟩ := Catalog.exists_of_mem_schemaObjects h
    rfl
  · refine Preceded.of_free fun object h => ?_
    rw [Catalog.enumObjects_eq] at h
    obtain ⟨definition, _, _, rfl⟩ := Catalog.mem_selection_iff.1 h
    rfl
  · exact Catalog.preceded_expand Catalog.compositeRoots_subset hc
  · exact Catalog.preceded_expand Catalog.tableRoots_subset ht

/-- All schemas come first, in their order, and then nothing but definitions. -/
theorem exists_definitions (reachable : catalog.Reachable)
    (built : ofCatalog catalog filter = .ok emission) :
    ∃ definitions, definitions ⊆ catalog.objects ∧
      emission.objects =
        (catalog.schemas.map fun schema => SqlObject.schema schema.text) ++ definitions := by
  obtain ⟨composites, tables, hc, ht, listed⟩ := exists_objects_eq built
  have first : distinctFrom (·.key) [] (catalog.schemas.map fun schema =>
      SqlObject.schema schema.text) =
        catalog.schemas.map fun schema => SqlObject.schema schema.text :=
    distinctFrom_eq_self reachable.nodup_schema_keys fun _ _ => List.not_mem_nil
  rw [distinctBy, distinctFrom_append, reachable.schemaObjects_eq, first] at listed
  refine ⟨_, ?_, listed⟩
  intro object h
  have offered := (distinctFrom_sublist _ _).subset h
  simp only [List.mem_append] at offered
  rcases offered with enum | composite | table
  · exact Catalog.enumObjects_subset enum
  · exact Catalog.expand_subset Catalog.compositeRoots_subset hc composite
  · exact Catalog.expand_subset Catalog.tableRoots_subset ht table

end Emission

namespace Sample

def onlyOrders : NameFilter := fun name => name == "sales.orders"

def ordersScript : Emission :=
  ⟨[⟨"schemas", [.schema "sales"]⟩, ⟨"enums", []⟩, ⟨"composites", []⟩,
    ⟨"tables", [.enum color, .composite money, .table orders]⟩]⟩

def completeScript : Emission :=
  ⟨[⟨"schemas", [.schema "sales"]⟩, ⟨"enums", [.enum color]⟩, ⟨"composites", [.composite money]⟩,
    ⟨"tables", [.table orders]⟩]⟩

theorem ordersScript_built : Emission.ofCatalog catalog onlyOrders = .ok ordersScript := by
  decide +kernel

theorem completeScript_built : Emission.ofCatalog catalog acceptAll = .ok completeScript := by
  decide +kernel

end Sample

end SchemaScript
