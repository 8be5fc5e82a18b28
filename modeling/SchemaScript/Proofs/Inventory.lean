import SchemaScript.Proofs.Sections

/-!
What a script creates: the schemas, what the filter accepts, and all that this leads to, each once.
Without a filter every section creates just the definitions of its own kind, since references
lead from tables to composite types and on to enumerations but never back to tables.
-/

namespace SchemaScript

namespace Catalog

variable {catalog : Catalog} {filter : NameFilter}

/-- What a filter asks for. It never leaves out a schema. -/
inductive Selected (catalog : Catalog) (filter : NameFilter) : SqlObject → Prop
  | schema {schema : Identifier} (listed : schema ∈ catalog.schemas) :
    Selected catalog filter (.schema schema.text)
  | enum {definition : EnumType} (listed : definition ∈ catalog.enums.items)
    (accepted : filter definition.qualifiedName.text = true) :
    Selected catalog filter (.enum definition)
  | composite {definition : CompositeType} {object : SqlObject}
    (listed : definition ∈ catalog.composites.items)
    (accepted : filter definition.qualifiedName.text = true)
    (reaches : catalog.Reaches (.composite definition) object) : Selected catalog filter object
  | table {definition : Table} {object : SqlObject} (listed : definition ∈ catalog.tables.items)
    (accepted : filter definition.qualifiedName.text = true)
    (reaches : catalog.Reaches (.table definition) object) : Selected catalog filter object

theorem resolve_kind_ne_table {type : ColumnType} {object : SqlObject}
    (h : catalog.resolve type false = some object) : object.kind ≠ .table := by
  unfold resolve at h
  split at h
  · cases h
  · split at h
    · cases h
      exact nofun
    · split at h
      · cases h
        exact nofun
      · simp at h

theorem Reaches.kind_ne_table {object other : SqlObject} (reaches : catalog.Reaches object other)
    (start : object.kind ≠ .table) : other.kind ≠ .table := by
  induction reaches with
  | refl => exact start
  | tail _ depends ih =>
    obtain ⟨column, _, refers⟩ := depends
    rw [columnTarget, beq_false_of_ne ih] at refers
    exact resolve_kind_ne_table refers

end Catalog

namespace Emission

variable {catalog : Catalog} {filter : NameFilter} {emission : Emission}

theorem mem_objects_iff_selected (reachable : catalog.Reachable)
    (built : ofCatalog catalog filter = .ok emission) {object : SqlObject} :
    object ∈ emission.objects ↔ catalog.Selected filter object := by
  rw [mem_objects_iff built, reachable.schemaObjects_eq, Catalog.enumObjects_eq]
  simp only [Catalog.compositeRoots, Catalog.tableRoots, Catalog.mem_selection_iff, List.mem_map]
  constructor
  · rintro (⟨schema, listed, rfl⟩ | ⟨definition, listed, accepted, rfl⟩ |
      ⟨_, ⟨definition, listed, accepted, rfl⟩, reaches⟩ |
      ⟨_, ⟨definition, listed, accepted, rfl⟩, reaches⟩)
    · exact .schema listed
    · exact .enum listed accepted
    · exact .composite listed accepted reaches
    · exact .table listed accepted reaches
  · intro selected
    cases selected with
    | schema listed => exact Or.inl ⟨_, listed, rfl⟩
    | enum listed accepted => exact Or.inr (Or.inl ⟨_, listed, accepted, rfl⟩)
    | composite listed accepted reaches =>
      exact Or.inr (Or.inr (Or.inl ⟨_, ⟨_, listed, accepted, rfl⟩, reaches⟩))
    | table listed accepted reaches =>
      exact Or.inr (Or.inr (Or.inr ⟨_, ⟨_, listed, accepted, rfl⟩, reaches⟩))

theorem nodup_keys (built : ofCatalog catalog filter = .ok emission) :
    (emission.objects.map (·.key)).Nodup := by
  obtain ⟨composites, tables, _, _, listed⟩ := exists_objects_eq built
  rw [listed]
  exact nodup_keys_distinctFrom [] _

theorem size_eq_length (emission : Emission) : emission.size = emission.objects.length := by
  rw [size, counts, objects]
  induction emission.sections with
  | nil => rfl
  | cons part rest ih =>
    rw [List.map_cons, List.map_cons, Number.total_cons, ih, List.flatMap_cons, List.length_append]

theorem flatMap_statementsFor_of_subset {destructive : Bool} {definitions : List SqlObject}
    (known : definitions ⊆ catalog.objects) :
    definitions.flatMap (statementsFor destructive) = definitions.map .create := by
  rw [List.map_eq_flatMap]
  apply List.flatMap_congr
  intro object listed
  cases object with
  | schema name => exact absurd (known listed) Catalog.schema_not_mem_objects
  | enum definition => rfl
  | composite definition => rfl
  | table definition => rfl

theorem length_flatMap_schemas (destructive : Bool) (schemas : List Identifier) :
    ((schemas.map fun schema => SqlObject.schema schema.text).flatMap
      (statementsFor destructive)).length =
      schemas.length + if destructive then schemas.length else 0 := by
  induction schemas with
  | nil => simp
  | cons schema rest ih =>
    rw [List.map_cons, List.flatMap_cons, List.length_append, ih, List.length_cons]
    cases destructive with
    | false => simp [statementsFor, Nat.add_comm]
    | true =>
      simp only [statementsFor, ↓reduceIte, List.length_cons, List.length_nil]
      omega

theorem length_statements (reachable : catalog.Reachable)
    (built : ofCatalog catalog filter = .ok emission) (destructive : Bool) :
    (emission.statements destructive).length =
      emission.objects.length + if destructive then catalog.schemas.length else 0 := by
  obtain ⟨definitions, known, listed⟩ := exists_definitions reachable built
  rw [statements, listed, List.flatMap_append, List.length_append, length_flatMap_schemas,
    flatMap_statementsFor_of_subset known, List.length_map, List.length_append, List.length_map]
  omega

/-- A section that is offered all definitions of its kind keeps just those, if every other object
offered to it has been created before. -/
theorem perm_section {α : Type} [Named α] {make : α → SqlObject} {kind : ObjectKind}
    (keyed : ∀ item, (make item).key = ⟨kind, (Named.qualifiedName item).text⟩)
    {list : NamedList α} {seen : List ObjectKey} {offered : List SqlObject}
    (known : ∀ object ∈ offered, catalog.Knows object)
    (earlier : ∀ key ∈ seen, key.kind ≠ kind) (own : ∀ item ∈ list.items, make item ∈ offered)
    (others : ∀ object ∈ offered, object ∈ list.items.map make ∨ object.key ∈ seen) :
    (distinctFrom (·.key) seen offered).Perm (list.items.map make) := by
  have kept : (distinctFrom (·.key) seen offered).Nodup :=
    (nodup_keys_distinctFrom seen offered).of_map
  have nodup : (list.items.map make).Nodup :=
    (Catalog.nodup_keys_of_items make kind keyed list).of_map
  refine (List.perm_ext_iff_of_nodup kept nodup).2 fun object => ?_
  rw [mem_distinctFrom (Catalog.distinguished known)]
  constructor
  · rintro ⟨given, fresh⟩
    exact (others object given).resolve_right fresh
  · intro listed
    obtain ⟨item, stored, rfl⟩ := List.mem_map.1 listed
    refine ⟨own item stored, fun again => earlier _ again ?_⟩
    rw [keyed]

theorem perm_enums (catalog : Catalog) {seen : List ObjectKey}
    (earlier : ∀ key ∈ seen, key.kind ≠ .enum) :
    (distinctFrom (·.key) seen (catalog.enumObjects acceptAll)).Perm
      (catalog.enums.items.map .enum) := by
  have offered : catalog.enumObjects acceptAll = catalog.enums.items.map .enum := by
    rw [Catalog.enumObjects_eq, List.filter_eq_self.2 (by simp [acceptAll])]
  have known : ∀ object ∈ catalog.enumObjects acceptAll, catalog.Knows object :=
    fun object h => Or.inl (Catalog.enumObjects_subset h)
  rw [offered] at known ⊢
  apply perm_section (fun _ => rfl) known earlier
  · exact fun definition listed => List.mem_map_of_mem listed
  · exact fun object h => Or.inl h

/-- Composite types lead to enumerations besides themselves, and those are created before. -/
theorem perm_composites {seen : List ObjectKey} {composites : List SqlObject}
    (expanded : catalog.expand (catalog.compositeRoots acceptAll) = .ok composites)
    (earlier : ∀ key ∈ seen, key.kind ≠ .composite)
    (enums : ∀ definition ∈ catalog.enums.items, (SqlObject.enum definition).key ∈ seen) :
    (distinctFrom (·.key) seen composites).Perm (catalog.composites.items.map .composite) := by
  have known := Catalog.expand_subset Catalog.compositeRoots_subset expanded
  have created := @Catalog.mem_expand_iff _ _ _ Catalog.compositeRoots_subset expanded
  apply perm_section (fun _ => rfl) (fun object h => Or.inl (known h)) earlier
  · intro definition listed
    exact created.2 ⟨_, Catalog.mem_selection_iff.2 ⟨_, listed, rfl, rfl⟩, .refl⟩
  · intro object h
    obtain ⟨root, selected, reaches⟩ := created.1 h
    obtain ⟨definition, _, _, rfl⟩ := Catalog.mem_selection_iff.1 selected
    have kind := reaches.kind_ne_table nofun
    have defined := known h
    cases object with
    | schema name => exact absurd defined Catalog.schema_not_mem_objects
    | enum other => exact Or.inr (enums other (Catalog.enum_mem_objects.1 defined))
    | composite other =>
      exact Or.inl (List.mem_map_of_mem (Catalog.composite_mem_objects.1 defined))
    | table other => exact absurd rfl kind

theorem perm_tables {seen : List ObjectKey} {tables : List SqlObject}
    (expanded : catalog.expand (catalog.tableRoots acceptAll) = .ok tables)
    (earlier : ∀ key ∈ seen, key.kind ≠ .table)
    (enums : ∀ definition ∈ catalog.enums.items, (SqlObject.enum definition).key ∈ seen)
    (composites : ∀ definition ∈ catalog.composites.items,
      (SqlObject.composite definition).key ∈ seen) :
    (distinctFrom (·.key) seen tables).Perm (catalog.tables.items.map .table) := by
  have known := Catalog.expand_subset Catalog.tableRoots_subset expanded
  have created := @Catalog.mem_expand_iff _ _ _ Catalog.tableRoots_subset expanded
  apply perm_section (fun _ => rfl) (fun object h => Or.inl (known h)) earlier
  · intro definition listed
    exact created.2 ⟨_, Catalog.mem_selection_iff.2 ⟨_, listed, rfl, rfl⟩, .refl⟩
  · intro object h
    have defined := known h
    cases object with
    | schema name => exact absurd defined Catalog.schema_not_mem_objects
    | enum other => exact Or.inr (enums other (Catalog.enum_mem_objects.1 defined))
    | composite other => exact Or.inr (composites other (Catalog.composite_mem_objects.1 defined))
    | table other => exact Or.inl (List.mem_map_of_mem (Catalog.table_mem_objects.1 defined))

theorem kind_of_mem_keys {kind : ObjectKind} {objects items : List SqlObject}
    (same : objects.Perm items) (own : ∀ object ∈ items, object.kind = kind) :
    ∀ key ∈ objects.map (·.key), key.kind = kind := by
  intro key h
  obtain ⟨object, listed, rfl⟩ := List.mem_map.1 h
  exact own object (same.subset listed)

theorem exists_sections_of_acceptAll (reachable : catalog.Reachable)
    (built : ofCatalog catalog acceptAll = .ok emission) :
    ∃ schemas enums composites tables : List SqlObject,
      emission.sections = [⟨"schemas", schemas⟩, ⟨"enums", enums⟩, ⟨"composites", composites⟩,
        ⟨"tables", tables⟩] ∧
      schemas.Perm (catalog.schemas.map fun schema => .schema schema.text) ∧
      enums.Perm (catalog.enums.items.map .enum) ∧
      composites.Perm (catalog.composites.items.map .composite) ∧
      tables.Perm (catalog.tables.items.map .table) := by
  obtain ⟨offeredComposites, offeredTables, hc, ht, rfl⟩ := ofCatalog_eq_ok_iff.1 built
  have schemas : (distinctFrom (·.key) [] (catalog.schemaObjects acceptAll)).Perm
      (catalog.schemas.map fun schema => .schema schema.text) := by
    rw [reachable.schemaObjects_eq]
    exact .of_eq (distinctFrom_eq_self reachable.nodup_schema_keys fun _ _ => List.not_mem_nil)
  have schemaKeys := kind_of_mem_keys schemas (List.forall_mem_map.2 fun _ _ => rfl)
  have enums := perm_enums catalog fun key h => by
    rw [schemaKeys key h]
    exact nofun
  have enumKeys := kind_of_mem_keys enums (List.forall_mem_map.2 fun _ _ => rfl)
  have enumCreated := fun definition (h : definition ∈ catalog.enums.items) =>
    List.mem_map_of_mem (f := SqlObject.key) (enums.symm.subset (List.mem_map_of_mem h))
  have composites := perm_composites hc (fun key h => by
    rcases List.mem_append.1 h with early | late
    · rw [schemaKeys key early]
      exact nofun
    · rw [enumKeys key late]
      exact nofun) fun definition h => List.mem_append_right _ (enumCreated definition h)
  have compositeKeys := kind_of_mem_keys composites (List.forall_mem_map.2 fun _ _ => rfl)
  refine ⟨_, _, _, _, rfl, schemas, enums, composites, perm_tables ht ?_ ?_ ?_⟩
  · intro key h
    rcases List.mem_append.1 h with early | late
    · rcases List.mem_append.1 early with first | second
      · rw [schemaKeys key first]
        exact nofun
      · rw [enumKeys key second]
        exact nofun
    · rw [compositeKeys key late]
      exact nofun
  · exact fun definition h =>
      List.mem_append_left _ (List.mem_append_right _ (enumCreated definition h))
  · exact fun definition h => List.mem_append_right _
      (List.mem_map_of_mem (composites.symm.subset (List.mem_map_of_mem h)))

/-- What a script creates, by kind and name, and how much of it there is. -/
structure Inventory (catalog : Catalog) (filter : NameFilter) (emission : Emission) : Prop where
  keys : ∀ key, key ∈ emission.objects.map (·.key) ↔
    ∃ object, catalog.Selected filter object ∧ object.key = key
  once : (emission.objects.map (·.key)).Nodup
  size : emission.size = (emission.objects.map (·.key)).length
  statements : ∀ destructive, (emission.statements destructive).length =
    (emission.objects.map (·.key)).length + if destructive then catalog.schemas.length else 0
  unfiltered : filter = acceptAll →
    emission.counts = [("schemas", catalog.schemas.length), ("enums", catalog.enums.size),
      ("composites", catalog.composites.size), ("tables", catalog.tables.size)] ∧
    ∃ schemas enums composites tables : List SqlObject,
      emission.sections = [⟨"schemas", schemas⟩, ⟨"enums", enums⟩, ⟨"composites", composites⟩,
        ⟨"tables", tables⟩] ∧
      schemas.Perm (catalog.schemas.map fun schema => .schema schema.text) ∧
      enums.Perm (catalog.enums.items.map .enum) ∧
      composites.Perm (catalog.composites.items.map .composite) ∧
      tables.Perm (catalog.tables.items.map .table)

theorem inventory_of_built (reachable : catalog.Reachable)
    (built : ofCatalog catalog filter = .ok emission) : Inventory catalog filter emission where
  keys key := by
    simp only [List.mem_map, mem_objects_iff_selected reachable built]
  once := nodup_keys built
  size := by rw [size_eq_length, List.length_map]
  statements destructive := by rw [length_statements reachable built, List.length_map]
  unfiltered := by
    rintro rfl
    obtain ⟨schemas, enums, composites, tables, parts, hs, he, hc, ht⟩ :=
      exists_sections_of_acceptAll reachable built
    refine ⟨?_, schemas, enums, composites, tables, parts, hs, he, hc, ht⟩
    rw [counts, parts]
    simp [hs.length_eq, he.length_eq, hc.length_eq, ht.length_eq, NamedList.size]

theorem inventory_of_sample :
    Inventory Sample.catalog Sample.onlyOrders Sample.ordersScript ∧
      Inventory Sample.catalog acceptAll Sample.completeScript :=
  ⟨inventory_of_built Sample.reachable Sample.ordersScript_built,
    inventory_of_built Sample.reachable Sample.completeScript_built⟩

end Emission

end SchemaScript
