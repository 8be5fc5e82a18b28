import SchemaScript.Proofs.Sections

/-!
The order of the statements of a script. Every object is created after its schema and after all
that its columns refer to, in whichever sections they stand, and nothing is dropped that the
script has created.
-/

namespace SchemaScript

def SqlObject.heading? : SqlObject → Option Heading
  | .schema _ => none
  | .enum definition => some definition.toHeading
  | .composite definition => some definition.toHeading
  | .table definition => some definition.toHeading

theorem Catalog.heading_mem_headings {catalog : Catalog} {object : SqlObject} {heading : Heading}
    (known : object ∈ catalog.objects) (h : object.heading? = some heading) :
    heading ∈ catalog.headings := by
  simp only [Catalog.headings, List.mem_append, List.mem_map]
  cases object with
  | schema name => cases h
  | enum definition =>
    cases h
    exact Or.inl (Or.inl ⟨definition, enum_mem_objects.1 known, rfl⟩)
  | composite definition =>
    cases h
    exact Or.inl (Or.inr ⟨definition, composite_mem_objects.1 known, rfl⟩)
  | table definition =>
    cases h
    exact Or.inr ⟨definition, table_mem_objects.1 known, rfl⟩

namespace Emission

open Statement

/-- The statements of a script stand in an order in which they can be carried out. -/
structure Ordered (catalog : Catalog) (emission : Emission) (statements : List Statement) :
    Prop where
  created : ∀ object ∈ emission.objects, create object ∈ statements
  /-- What a column refers to is created before the object that has the column. -/
  target_first : ∀ (before : List Statement) (object : SqlObject),
    before ++ [create object] <+: statements →
      ∀ column ∈ object.columns, ∀ target : SqlObject,
        catalog.columnTarget object column = some target → create target ∈ before
  schema_first : ∀ (before : List Statement) (object : SqlObject),
    before ++ [create object] <+: statements →
      ∀ heading : Heading, object.heading? = some heading →
        create (.schema heading.schema.text) ∈ before
  restored : ∀ (before : List Statement) (schema : String),
    before ++ [drop schema] <+: statements →
      before ++ [drop schema, create (.schema schema)] <+: statements
  /-- Before a schema is dropped, only other schemas are created. -/
  drop_first : ∀ (before : List Statement) (schema : String),
    before ++ [drop schema] <+: statements →
      ∀ object : SqlObject, create object ∈ before →
        ∃ other, other ≠ schema ∧ object = .schema other

variable {catalog : Catalog} {filter : NameFilter} {emission : Emission} {destructive : Bool}

theorem create_mem_statements {objects : List SqlObject} {object : SqlObject} :
    create object ∈ objects.flatMap (statementsFor destructive) ↔ object ∈ objects := by
  rw [List.mem_flatMap]
  constructor
  · rintro ⟨other, listed, h⟩
    cases other <;> cases destructive <;> simp_all [statementsFor]
  · intro listed
    refine ⟨object, listed, ?_⟩
    cases object <;> cases destructive <;> simp [statementsFor]

theorem exists_earlier_of_create {objects : List SqlObject} {before : List Statement}
    {object : SqlObject}
    (h : before ++ [create object] <+: objects.flatMap (statementsFor destructive)) :
    ∃ earlier, earlier ++ [object] <+: objects ∧
      earlier.flatMap (statementsFor destructive) ⊆ before := by
  obtain ⟨earlier, item, inside, stands, ends, rfl⟩ := exists_chunk_of_prefix h
  have same : item = object := by
    have listed := ends.subset (List.mem_append_right _ List.mem_cons_self)
    cases item <;> cases destructive <;> simp_all [statementsFor]
  exact ⟨earlier, same ▸ stands, List.subset_append_left _ inside⟩

theorem statementsFor_of_drop {inside : List Statement} {item : SqlObject} {schema : String}
    (h : inside ++ [drop schema] <+: statementsFor destructive item) :
    inside = [] ∧ item = .schema schema ∧
      statementsFor destructive item = [drop schema, create item] := by
  have listed := h.subset (List.mem_append_right _ List.mem_cons_self)
  cases item <;> cases destructive <;> simp [statementsFor] at listed
  case schema.true name =>
    subst listed
    refine ⟨?_, rfl, rfl⟩
    cases inside with
    | nil => rfl
    | cons first rest =>
      obtain ⟨behind, split⟩ := h
      cases rest <;> simp [statementsFor] at split

theorem exists_earlier_of_drop {objects : List SqlObject} {before : List Statement}
    {schema : String}
    (h : before ++ [drop schema] <+: objects.flatMap (statementsFor destructive)) :
    ∃ earlier, earlier ++ [.schema schema] <+: objects ∧
      before = earlier.flatMap (statementsFor destructive) ∧
      before ++ [drop schema, create (.schema schema)] <+:
        objects.flatMap (statementsFor destructive) := by
  obtain ⟨earlier, item, inside, stands, ends, rfl⟩ := exists_chunk_of_prefix h
  obtain ⟨rfl, rfl, both⟩ := statementsFor_of_drop ends
  obtain ⟨later, rfl⟩ := stands
  refine ⟨earlier, List.prefix_append _ later, List.append_nil _, ?_⟩
  rw [List.flatMap_append, List.flatMap_append, List.flatMap_singleton, both, List.append_nil]
  exact List.prefix_append _ _

theorem schemas_before (reachable : catalog.Reachable)
    (built : ofCatalog catalog filter = .ok emission) {before : List SqlObject}
    {object : SqlObject} {heading : Heading}
    (stands : before ++ [object] <+: emission.objects) (h : object.heading? = some heading) :
    .schema heading.schema.text ∈ before := by
  obtain ⟨definitions, known, listed⟩ := exists_definitions reachable built
  rw [listed] at stands
  rcases snoc_prefix_append stands with schema | ⟨between, rfl, later⟩
  · have first := schema.subset (List.mem_append_right _ List.mem_cons_self)
    obtain ⟨name, _, rfl⟩ := List.mem_map.1 first
    cases h
  · have defined := known (later.subset (List.mem_append_right _ List.mem_cons_self))
    have named : heading.schema ∈ catalog.schemas :=
      reachable.mem_schemas_iff.2 ⟨heading, Catalog.heading_mem_headings defined h, rfl⟩
    exact List.mem_append_left _ (List.mem_map.2 ⟨_, named, rfl⟩)

theorem other_schemas_before (reachable : catalog.Reachable)
    (built : ofCatalog catalog filter = .ok emission) {before : List SqlObject} {schema : String}
    (stands : before ++ [.schema schema] <+: emission.objects) :
    ∀ object ∈ before, ∃ other, other ≠ schema ∧ object = .schema other := by
  obtain ⟨definitions, known, listed⟩ := exists_definitions reachable built
  rw [listed] at stands
  rcases snoc_prefix_append stands with first | ⟨between, rfl, later⟩
  · intro object h
    obtain ⟨other, _, rfl⟩ := List.mem_map.1 (first.subset (List.mem_append_left _ h))
    refine ⟨other.text, ?_, rfl⟩
    rintro rfl
    have once := first.sublist.nodup (List.Nodup.of_map _ reachable.nodup_schema_keys)
    exact (List.nodup_append.1 once).2.2 _ h _ List.mem_cons_self rfl
  · have defined := known (later.subset (List.mem_append_right _ List.mem_cons_self))
    exact absurd defined Catalog.schema_not_mem_objects

/-- Everything a script creates can be created when its turn comes, and stays. -/
theorem ordered_statements (reachable : catalog.Reachable)
    (built : ofCatalog catalog filter = .ok emission) (destructive : Bool) :
    Ordered catalog emission (emission.statements destructive) where
  created object listed := create_mem_statements.2 listed
  target_first before object h column listed target refers := by
    obtain ⟨earlier, stands, inside⟩ := exists_earlier_of_create h
    have depends := Catalog.mem_dependencies.2 ⟨column, listed, refers⟩
    exact inside (create_mem_statements.2 (preceded_objects built earlier object stands depends))
  schema_first before object h heading named := by
    obtain ⟨earlier, stands, inside⟩ := exists_earlier_of_create h
    exact inside (create_mem_statements.2 (schemas_before reachable built stands named))
  restored before schema h := by
    obtain ⟨_, _, _, both⟩ := exists_earlier_of_drop h
    exact both
  drop_first before schema h object made := by
    obtain ⟨earlier, stands, rfl, _⟩ := exists_earlier_of_drop h
    exact other_schemas_before reachable built stands object (create_mem_statements.1 made)

theorem ordered_statements_orders :
    Ordered Sample.catalog Sample.ordersScript (Sample.ordersScript.statements true) :=
  ordered_statements Sample.reachable Sample.ordersScript_built true

end Emission

end SchemaScript
