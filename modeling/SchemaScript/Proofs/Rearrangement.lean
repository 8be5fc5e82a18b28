import SchemaScript.Proofs.Cycles
import SchemaScript.Proofs.Inventory
import SchemaScript.Proofs.Staging

/-!
The same definitions in another order. What a name stands for does not depend on where its
definition is listed, and so neither do references, cycles and what a filter asks for. A section of
a script then has the same objects in another order, although each section leaves out what happens
to be in an earlier one.
-/

namespace SchemaScript

theorem perm_distinctFrom {α κ : Type} [DecidableEq κ] {key : α → κ} {seen other : List κ}
    {first second : List α} (before : ∀ k, k ∈ seen ↔ k ∈ other)
    (same : ∀ a, a ∈ first ↔ a ∈ second)
    (distinguished : ∀ a ∈ first, ∀ b ∈ first, key a = key b → a = b) :
    (distinctFrom key seen first).Perm (distinctFrom key other second) := by
  have kept : (distinctFrom key seen first).Nodup := (nodup_keys_distinctFrom seen first).of_map
  have keptOther : (distinctFrom key other second).Nodup :=
    (nodup_keys_distinctFrom other second).of_map
  have distinguishedOther : ∀ a ∈ second, ∀ b ∈ second, key a = key b → a = b :=
    fun a ha b hb => distinguished a ((same a).2 ha) b ((same b).2 hb)
  refine (List.perm_ext_iff_of_nodup kept keptOther).2 fun a => ?_
  rw [mem_distinctFrom distinguished, mem_distinctFrom distinguishedOther, same, before]

theorem perm_eraseDups {α : Type} [DecidableEq α] {first second : List α}
    (same : first.Perm second) : first.eraseDups.Perm second.eraseDups := by
  refine (List.perm_ext_iff_of_nodup (nodup_eraseDups first) (nodup_eraseDups second)).2 ?_
  intro a
  rw [List.mem_eraseDups, List.mem_eraseDups, same.mem_iff]

theorem NamedList.find?_of_perm {α : Type} [Named α] {first second : NamedList α}
    (same : first.items.Perm second.items) (name : String) :
    first.find? name = second.find? name := by
  ext item
  rw [find?_eq_some_iff, find?_eq_some_iff, same.mem_iff]

theorem Catalog.mem_schemaObjects_iff {catalog : Catalog} {filter : NameFilter}
    {object : SqlObject} :
    object ∈ catalog.schemaObjects filter ↔
      ∃ schema ∈ catalog.schemas, filter schema.text = true ∧ object = .schema schema.text := by
  have known : ∀ object ∈ (catalog.schemas.map fun schema => SqlObject.schema schema.text).filter
      fun object => filter object.name, catalog.Knows object := by
    intro object selected
    obtain ⟨schema, _, _, rfl⟩ := mem_selection_iff.1 selected
    exact knows_schema
  rw [schemaObjects, mem_distinctBy (distinguished known), mem_selection_iff]
  rfl

structure Catalog.Rearranges (first second : Catalog) : Prop where
  enums : first.enums.items.Perm second.enums.items
  composites : first.composites.items.Perm second.composites.items
  tables : first.tables.items.Perm second.tables.items
  schemas : first.schemas.Perm second.schemas

namespace Catalog.Rearranges

variable {first second : Catalog}

theorem symm (same : first.Rearranges second) : second.Rearranges first where
  enums := same.enums.symm
  composites := same.composites.symm
  tables := same.tables.symm
  schemas := same.schemas.symm

theorem resolve_eq (same : first.Rearranges second) : first.resolve = second.resolve := by
  funext type withTables
  cases type with
  | literal text => rfl
  | reference name =>
    simp only [resolve, NamedList.find?_of_perm same.enums, NamedList.find?_of_perm same.composites,
      NamedList.find?_of_perm same.tables]

theorem dependsOn_eq (same : first.Rearranges second) : first.DependsOn = second.DependsOn := by
  funext object other
  simp only [DependsOn, columnTarget, same.resolve_eq]

theorem reaches_eq (same : first.Rearranges second) : first.Reaches = second.Reaches := by
  rw [Reaches, Reaches, same.dependsOn_eq]

theorem leadsToCycle_eq (same : first.Rearranges second) :
    first.LeadsToCycle = second.LeadsToCycle := by
  funext root
  simp only [LeadsToCycle, Circular, same.reaches_eq, same.dependsOn_eq]

theorem acyclicUnder (same : first.Rearranges second) {filter : NameFilter}
    (acyclic : first.AcyclicUnder filter) : second.AcyclicUnder filter where
  composites definition listed := by
    rw [← same.leadsToCycle_eq]
    exact acyclic.composites definition (same.composites.mem_iff.2 listed)
  tables definition listed := by
    rw [← same.leadsToCycle_eq]
    exact acyclic.tables definition (same.tables.mem_iff.2 listed)

variable {filter : NameFilter}

theorem mem_schemaObjects (same : first.Rearranges second) (object : SqlObject) :
    object ∈ first.schemaObjects filter ↔ object ∈ second.schemaObjects filter := by
  simp only [mem_schemaObjects_iff, same.schemas.mem_iff]

theorem perm_enumObjects (same : first.Rearranges second) :
    (first.enumObjects filter).Perm (second.enumObjects filter) := by
  rw [enumObjects_eq, enumObjects_eq]
  exact (same.enums.map _).filter _

theorem perm_compositeRoots (same : first.Rearranges second) :
    (first.compositeRoots filter).Perm (second.compositeRoots filter) :=
  (same.composites.map _).filter _

theorem perm_tableRoots (same : first.Rearranges second) :
    (first.tableRoots filter).Perm (second.tableRoots filter) :=
  (same.tables.map _).filter _

theorem mem_expand (same : first.Rearranges second) {roots others objects found : List SqlObject}
    (known : roots ⊆ first.objects) (knownOthers : others ⊆ second.objects)
    (listed : roots.Perm others) (expanded : first.expand roots = .ok objects)
    (expandedOthers : second.expand others = .ok found) (object : SqlObject) :
    object ∈ objects ↔ object ∈ found := by
  rw [mem_expand_iff known expanded, mem_expand_iff knownOthers expandedOthers, same.reaches_eq]
  simp only [listed.mem_iff]

end Catalog.Rearranges

structure Section.OffersSame (first second : Section) : Prop where
  name : first.name = second.name
  objects : ∀ object, object ∈ first.objects ↔ object ∈ second.objects

structure Section.Rearranges (first second : Section) : Prop where
  name : first.name = second.name
  objects : first.objects.Perm second.objects

/-- What the sections before have created is the same too, so they leave out the same. -/
theorem rearranges_withoutRepeats (catalog : Catalog) {seen other : List ObjectKey}
    {first second : List Section} (offered : List.Forall₂ Section.OffersSame first second)
    (known : ∀ part ∈ first, ∀ object ∈ part.objects, catalog.Knows object)
    (before : ∀ key, key ∈ seen ↔ key ∈ other) :
    List.Forall₂ Section.Rearranges (withoutRepeats seen first) (withoutRepeats other second) := by
  induction offered generalizing seen other with
  | nil => exact .nil
  | cons part rest ih =>
    have fresh := perm_distinctFrom before part.objects
      (Catalog.distinguished (known _ List.mem_cons_self))
    refine .cons ⟨part.name, fresh⟩ (ih (fun part later => known part (.tail _ later)) ?_)
    intro key
    rw [List.mem_append, List.mem_append, before, (fresh.map _).mem_iff]

def Emission.Rearranges (first second : Emission) : Prop :=
  List.Forall₂ Section.Rearranges first.sections second.sections

namespace Emission

namespace Rearranges

variable {first second : Emission}

theorem counts_eq (same : first.Rearranges second) : first.counts = second.counts := by
  obtain ⟨parts⟩ := first
  obtain ⟨others⟩ := second
  change List.Forall₂ Section.Rearranges parts others at same
  simp only [counts]
  induction same with
  | nil => rfl
  | cons part rest ih => rw [List.map_cons, List.map_cons, ih, part.name, part.objects.length_eq]

theorem size_eq (same : first.Rearranges second) : first.size = second.size := by
  rw [size, size, same.counts_eq]

theorem perm_objects (same : first.Rearranges second) : first.objects.Perm second.objects := by
  obtain ⟨parts⟩ := first
  obtain ⟨others⟩ := second
  change List.Forall₂ Section.Rearranges parts others at same
  simp only [objects]
  induction same with
  | nil => exact .refl _
  | cons part rest ih => exact part.objects.append ih

theorem perm_statements (same : first.Rearranges second) (destructive : Bool) :
    (first.statements destructive).Perm (second.statements destructive) :=
  same.perm_objects.flatMap_right _

end Rearranges

variable {catalog other : Catalog} {filter : NameFilter} {emission : Emission}

theorem exists_rearranges_of_built (same : catalog.Rearranges other)
    (built : ofCatalog catalog filter = .ok emission) :
    ∃ rearranged, ofCatalog other filter = .ok rearranged ∧ emission.Rearranges rearranged := by
  obtain ⟨rearranged, builtOther⟩ :=
    exists_ofCatalog_iff.2 (same.acyclicUnder (exists_ofCatalog_iff.1 ⟨emission, built⟩))
  refine ⟨rearranged, builtOther, ?_⟩
  obtain ⟨composites, tables, hc, ht, rfl⟩ := ofCatalog_eq_ok_iff.1 built
  obtain ⟨composites', tables', hc', ht', rfl⟩ := ofCatalog_eq_ok_iff.1 builtOther
  refine rearranges_withoutRepeats catalog ?_ ?_ fun key => Iff.rfl
  · refine .cons ⟨rfl, same.mem_schemaObjects⟩ (.cons ⟨rfl, fun _ => same.perm_enumObjects.mem_iff⟩
      (.cons ⟨rfl, ?_⟩ (.cons ⟨rfl, ?_⟩ .nil)))
    · exact same.mem_expand Catalog.compositeRoots_subset Catalog.compositeRoots_subset
        same.perm_compositeRoots hc hc'
    · exact same.mem_expand Catalog.tableRoots_subset Catalog.tableRoots_subset
        same.perm_tableRoots ht ht'
  · have candidates := knows_of_mem_candidates hc ht
    simp only [List.mem_append] at candidates
    simp only [List.forall_mem_cons]
    exact ⟨fun object h => candidates object (.inl h),
      fun object h => candidates object (.inr (.inl h)),
      fun object h => candidates object (.inr (.inr (.inl h))),
      fun object h => candidates object (.inr (.inr (.inr h))), List.forall_mem_nil _⟩

end Emission

/-- Collections have the same definitions in each category, in whatever orders and in whichever
collection. -/
structure SameDefinitions (first second : List Collection) : Prop where
  enums : (first.flatMap (·.enums)).Perm (second.flatMap (·.enums))
  composites : (first.flatMap (·.composites)).Perm (second.flatMap (·.composites))
  tables : (first.flatMap (·.tables)).Perm (second.flatMap (·.tables))

namespace SameDefinitions

variable {first second : List Collection} {catalog a b : Catalog}

theorem perm_duplicates (same : SameDefinitions first second) (catalog : Catalog) :
    (catalog.stage first).2.Perm (catalog.stage second).2 := by
  refine (catalog.perm_leftOut first).trans (.trans ?_ (catalog.perm_leftOut second).symm)
  exact (((NamedList.perm_stage same.enums).map _).append
    ((NamedList.perm_stage same.composites).map _)).append
    ((NamedList.perm_stage same.tables).map _)

theorem rearranges_of_merge (same : SameDefinitions first second)
    (one : catalog.merge first = .ok a) (two : catalog.merge second = .ok b) :
    a.Rearranges b := by
  have listed := Catalog.extends_merge one
  have listedOther := Catalog.extends_merge two
  have enums : a.enums.items.Perm b.enums.items := by
    rw [listed.enums, listedOther.enums]
    exact same.enums.append_left _
  have composites : a.composites.items.Perm b.composites.items := by
    rw [listed.composites, listedOther.composites]
    exact same.composites.append_left _
  have tables : a.tables.items.Perm b.tables.items := by
    rw [listed.tables, listedOther.tables]
    exact same.tables.append_left _
  have headings : a.headings.Perm b.headings :=
    ((enums.map _).append (composites.map _)).append (tables.map _)
  refine ⟨enums, composites, tables, ?_⟩
  rw [Catalog.schemas_merge one, Catalog.schemas_merge two, Catalog.mentionedSchemas_eq_eraseDups,
    Catalog.mentionedSchemas_eq_eraseDups]
  exact perm_eraseDups (headings.map _)

/-- Both are merged into catalogs that list the same, or both are refused for the same names. -/
theorem merge_cases (same : SameDefinitions first second) (catalog : Catalog) :
    (∃ a b, catalog.merge first = .ok a ∧ catalog.merge second = .ok b ∧ a.Rearranges b) ∨
      ∃ left right, catalog.merge first = .error left ∧ catalog.merge second = .error right ∧
        left.Perm right := by
  have repeated := same.perm_duplicates catalog
  by_cases complete : (catalog.stage first).2 = []
  · have one := Catalog.merge_eq_ok_iff.2 ⟨complete, rfl⟩
    have two := Catalog.merge_eq_ok_iff.2 ⟨(complete ▸ repeated).nil_eq.symm, rfl⟩
    exact .inl ⟨_, _, one, two, same.rearranges_of_merge one two⟩
  · have incomplete : (catalog.stage second).2 ≠ [] := fun none =>
      complete (none ▸ repeated).eq_nil
    exact .inr ⟨_, _, Catalog.merge_eq_error_iff.2 ⟨rfl, complete⟩,
      Catalog.merge_eq_error_iff.2 ⟨rfl, incomplete⟩, repeated⟩

end SameDefinitions

end SchemaScript
