import SchemaScript.Proofs.Inventory
import SchemaScript.Proofs.Repeats

/-!
Additions to a catalog. Definitions that nothing before them refers to are not met by the walks
from there, not even where they share a name with a definition of a later category. If a filter
accepts none of them either, a script is what it was before, but for the schemas it creates.
-/

namespace SchemaScript

theorem NamedList.find?_of_append {α : Type} [Named α] {list longer : NamedList α}
    {added : List α} {name : String} (grown : longer.items = list.items ++ added)
    (absent : ∀ item ∈ added, (Named.qualifiedName item).text ≠ name) :
    longer.find? name = list.find? name := by
  have missed : added.find? (fun item => (Named.qualifiedName item).text == name) = none :=
    List.find?_eq_none.2 fun item listed => by simpa using absent item listed
  rw [find?, find?, grown, List.find?_append, missed, Option.or_none]

namespace Catalog

variable {catalog larger : Catalog} {collections : List Collection} {filter : NameFilter}

/-- Definitions that nothing in a catalog refers to and that a filter does not accept. -/
structure Unrelated (catalog : Catalog) (collections : List Collection) (filter : NameFilter) :
    Prop where
  unreferenced : ∀ object ∈ catalog.objects, ∀ column ∈ object.columns,
    ∀ added ∈ objectsOf collections, column.type ≠ .reference added.name
  rejected : ∀ added ∈ objectsOf collections, filter added.name = false

def DependsAlike (catalog larger : Catalog) : Prop :=
  ∀ object ∈ catalog.objects, larger.dependencies object = catalog.dependencies object

theorem Unrelated.dependsAlike (unrelated : catalog.Unrelated collections filter)
    (extended : Extends catalog larger collections) : catalog.DependsAlike larger := by
  intro object known
  refine List.filterMap_congr fun column listed => ?_
  have apart := unrelated.unreferenced object known column listed
  unfold columnTarget
  cases type : column.type with
  | literal text => rfl
  | reference name =>
    have other : ∀ added ∈ objectsOf collections, added.name ≠ name := fun added given same =>
      apart added given (same ▸ type)
    have enums : larger.enums.find? name = catalog.enums.find? name :=
      NamedList.find?_of_append extended.enums fun definition given =>
        other _ (enum_mem_objectsOf.2 given)
    have composites : larger.composites.find? name = catalog.composites.find? name :=
      NamedList.find?_of_append extended.composites fun definition given =>
        other _ (composite_mem_objectsOf.2 given)
    have tables : larger.tables.find? name = catalog.tables.find? name :=
      NamedList.find?_of_append extended.tables fun definition given =>
        other _ (table_mem_objectsOf.2 given)
    simp only [resolve, enums, composites, tables]

section Alike

variable (alike : catalog.DependsAlike larger)

include alike

/-- What stands on the stack of a walk stays within the catalog, where both walks see the same. -/
theorem DependsAlike.run_eq {stack : List Walk.Frame}
    (known : ∀ frame ∈ stack, frame.object ∈ catalog.objects) :
    Walk.run larger stack = Walk.run catalog stack := by
  have below_eq : ∀ frame : Walk.Frame, frame.object ∈ catalog.objects →
      Walk.children larger frame = Walk.children catalog frame := by
    intro frame stands
    rw [Walk.children, Walk.children, alike frame.object stands]
  fun_induction Walk.run catalog stack with
  | case1 => rw [Walk.run]
  | case2 frame rest cycle closes =>
    exact Walk.run_of_closed ((below_eq frame (known frame List.mem_cons_self)).trans closes)
  | case3 frame rest below opened ih =>
    rw [Walk.run_of_opened ((below_eq frame (known frame List.mem_cons_self)).trans opened), ih]
    intro next stacked
    -- A reference never leads out of the smaller catalog, so what is pushed stands in it too.
    rcases List.mem_append.1 stacked with child | pending
    · have depends : next.object ∈ catalog.dependencies frame.object := by
        rw [← Walk.children_objects opened]
        exact List.mem_map_of_mem (List.mem_reverse.1 child)
      exact dependencies_subset depends
    · exact known next (.tail _ pending)

theorem DependsAlike.walkAll_eq {roots : List SqlObject} (known : roots ⊆ catalog.objects) :
    larger.walkAll roots = catalog.walkAll roots := by
  induction roots with
  | nil => rfl
  | cons root rest ih =>
    obtain ⟨first, later⟩ := List.cons_subset.1 known
    have walks : larger.walk root = catalog.walk root :=
      alike.run_eq (List.forall_mem_singleton.2 first)
    simp only [walkAll, walks, ih later]

theorem DependsAlike.expand_eq {roots : List SqlObject} (known : roots ⊆ catalog.objects) :
    larger.expand roots = catalog.expand roots := by
  rw [expand, expand, alike.walkAll_eq known]

end Alike

theorem filter_map_append {α : Type} {make : α → SqlObject} {items added : List α}
    (rejected : ∀ item ∈ added, filter (make item).name = false) :
    ((items ++ added).map make).filter (fun object => filter object.name) =
      (items.map make).filter fun object => filter object.name := by
  have none : (added.map make).filter (fun object => filter object.name) = [] := by
    rw [List.filter_eq_nil_iff]
    intro object listed
    obtain ⟨item, given, rfl⟩ := List.mem_map.1 listed
    simp [rejected item given]
  rw [List.map_append, List.filter_append, none, List.append_nil]

namespace Unrelated

variable (unrelated : catalog.Unrelated collections filter)
  (extended : Extends catalog larger collections)

include unrelated extended

theorem enumObjects_eq : larger.enumObjects filter = catalog.enumObjects filter := by
  rw [Catalog.enumObjects_eq, Catalog.enumObjects_eq, extended.enums]
  exact filter_map_append fun definition given =>
    unrelated.rejected _ (enum_mem_objectsOf.2 given)

theorem compositeRoots_eq : larger.compositeRoots filter = catalog.compositeRoots filter := by
  rw [compositeRoots, compositeRoots, extended.composites]
  exact filter_map_append fun definition given =>
    unrelated.rejected _ (composite_mem_objectsOf.2 given)

theorem tableRoots_eq : larger.tableRoots filter = catalog.tableRoots filter := by
  rw [tableRoots, tableRoots, extended.tables]
  exact filter_map_append fun definition given =>
    unrelated.rejected _ (table_mem_objectsOf.2 given)

end Unrelated

theorem Extends.headings_subset (extended : Extends catalog larger collections) :
    catalog.headings ⊆ larger.headings := by
  rw [headings, headings, extended.enums, extended.composites, extended.tables]
  intro heading listed
  simp only [List.map_append, List.mem_append] at listed ⊢
  tauto

theorem Extends.schemas_subset (extended : Extends catalog larger collections)
    (reachable : catalog.Reachable) (reachableLarger : larger.Reachable) :
    catalog.schemas ⊆ larger.schemas := by
  intro schema listed
  obtain ⟨heading, stands, same⟩ := reachable.mem_schemas_iff.1 listed
  exact reachableLarger.mem_schemas_iff.2 ⟨heading, extended.headings_subset stands, same⟩

end Catalog

theorem withoutRepeats_congr {seen other : List ObjectKey} {sections : List Section}
    (same : ∀ part ∈ sections, ∀ object ∈ part.objects, object.key ∈ seen ↔ object.key ∈ other) :
    withoutRepeats seen sections = withoutRepeats other sections := by
  induction sections generalizing seen other with
  | nil => rfl
  | cons part rest ih =>
    have fresh : distinctFrom (·.key) seen part.objects = distinctFrom (·.key) other part.objects :=
      distinctFrom_congr (same part List.mem_cons_self)
    rw [withoutRepeats, withoutRepeats, fresh]
    refine congrArg _ (ih fun later listed object given => ?_)
    rw [List.mem_append, List.mem_append, same later (.tail _ listed) object given]

def Schemaless (sections : List Section) : Prop :=
  ∀ part ∈ sections, ∀ object ∈ part.objects, object.kind ≠ .schema

theorem schemaless_withoutRepeats {sections : List Section} (defined : Schemaless sections) :
    Schemaless (withoutRepeats [] sections) := by
  intro part listed object given
  have kept : object ∈ (withoutRepeats [] sections).flatMap (·.objects) :=
    List.mem_flatMap.2 ⟨part, listed, given⟩
  rw [objects_withoutRepeats] at kept
  obtain ⟨source, stands, offered⟩ := List.mem_flatMap.1 ((distinctFrom_sublist _ _).subset kept)
  exact defined source stands object offered

theorem withoutRepeats_schemas {catalog : Catalog} (reachable : catalog.Reachable)
    {rest : List Section} (defined : Schemaless rest) :
    withoutRepeats [] (⟨"schemas", catalog.schemaObjects acceptAll⟩ :: rest) =
      ⟨"schemas", catalog.schemas.map fun schema => .schema schema.text⟩ ::
        withoutRepeats [] rest := by
  have kept := distinctFrom_eq_self reachable.nodup_schema_keys fun _ _ => List.not_mem_nil
  rw [withoutRepeats, reachable.schemaObjects_eq, kept]
  refine congrArg _ (withoutRepeats_congr fun part listed object given => ?_)
  -- All that has been created so far are schemas, so a definition is not among it.
  refine iff_of_false (fun seen => ?_) List.not_mem_nil
  rw [List.nil_append, List.map_map] at seen
  obtain ⟨schema, _, same⟩ := List.mem_map.1 seen
  exact defined part listed object given (congrArg ObjectKey.kind same).symm

def Statement.kind : Statement → ObjectKind
  | .drop _ => .schema
  | .create object => object.kind

namespace Emission

variable {catalog larger : Catalog} {collections : List Collection} {filter : NameFilter}
  {before after : Emission}

theorem kind_of_mem_statementsFor {destructive : Bool} {object : SqlObject}
    {statement : Statement} (given : statement ∈ statementsFor destructive object) :
    statement.kind = object.kind := by
  cases object <;> cases destructive <;> simp [statementsFor] at given
  case schema.true => rcases given with rfl | rfl <;> rfl
  all_goals cases given; rfl

theorem filter_statements (emission : Emission) (destructive : Bool)
    (chosen : ObjectKind → Bool) :
    (emission.statements destructive).filter (fun statement => chosen statement.kind) =
      (emission.objects.filter fun object => chosen object.kind).flatMap
        (statementsFor destructive) := by
  rw [statements]
  induction emission.objects with
  | nil => rfl
  | cons object rest ih =>
    rw [List.flatMap_cons, List.filter_append, ih, List.filter_cons]
    split
    · next taken =>
      rw [List.flatMap_cons, List.filter_eq_self.2]
      intro statement given
      rw [kind_of_mem_statementsFor given, taken]
    · next passed =>
      rw [List.filter_eq_nil_iff.2, List.nil_append]
      intro statement given
      rw [kind_of_mem_statementsFor given]
      exact passed

/-- Two scripts are the same but for schemas that only the second one creates. -/
structure AddsSchemas (before after : Emission) : Prop where
  sections : before.sections.tail = after.sections.tail
  definitions : ∀ destructive,
    (before.statements destructive).filter (·.kind != .schema) =
      (after.statements destructive).filter (·.kind != .schema)
  schemas : ∀ destructive,
    (before.statements destructive).filter (·.kind == .schema) ⊆
      (after.statements destructive).filter (·.kind == .schema)

structure Parts (emission : Emission) (schemas : List Identifier) (rest : List Section) :
    Prop where
  sections : emission.sections =
    ⟨"schemas", schemas.map fun schema => .schema schema.text⟩ :: rest
  defined : Schemaless rest

namespace Parts

variable {emission : Emission} {schemas more : List Identifier} {rest : List Section}

theorem objects_eq (parts : emission.Parts schemas rest) :
    emission.objects =
      (schemas.map fun schema => .schema schema.text) ++ rest.flatMap (·.objects) := by
  rw [objects, parts.sections, List.flatMap_cons]

theorem filter_definitions (parts : emission.Parts schemas rest) :
    (emission.objects.filter fun object => object.kind != .schema) =
      rest.flatMap (·.objects) := by
  rw [parts.objects_eq, List.filter_append, List.filter_eq_nil_iff.2, List.nil_append,
    List.filter_eq_self]
  · intro object listed
    obtain ⟨part, stands, given⟩ := List.mem_flatMap.1 listed
    exact bne_iff_ne.2 (parts.defined part stands object given)
  · intro object listed
    obtain ⟨schema, _, rfl⟩ := List.mem_map.1 listed
    simp [SqlObject.kind]

theorem filter_schemas (parts : emission.Parts schemas rest) :
    (emission.objects.filter fun object => object.kind == .schema) =
      schemas.map fun schema => .schema schema.text := by
  rw [parts.objects_eq, List.filter_append, List.filter_eq_self.2, List.filter_eq_nil_iff.2,
    List.append_nil]
  · intro object listed
    obtain ⟨part, stands, given⟩ := List.mem_flatMap.1 listed
    simpa using parts.defined part stands object given
  · intro object listed
    obtain ⟨schema, _, rfl⟩ := List.mem_map.1 listed
    rfl

theorem addsSchemas (parts : before.Parts schemas rest) (others : after.Parts more rest)
    (fewer : schemas ⊆ more) : before.AddsSchemas after where
  sections := by rw [parts.sections, others.sections, List.tail_cons, List.tail_cons]
  definitions destructive := by
    rw [filter_statements before destructive (· != .schema),
      filter_statements after destructive (· != .schema), parts.filter_definitions,
      others.filter_definitions]
  schemas destructive := by
    rw [filter_statements before destructive (· == .schema),
      filter_statements after destructive (· == .schema), parts.filter_schemas,
      others.filter_schemas]
    intro statement made
    obtain ⟨object, created, given⟩ := List.mem_flatMap.1 made
    exact List.mem_flatMap.2 ⟨object, List.map_subset _ fewer created, given⟩

end Parts

def offered (catalog : Catalog) (filter : NameFilter) (composites tables : List SqlObject) :
    List Section :=
  [⟨"enums", catalog.enumObjects filter⟩, ⟨"composites", composites⟩, ⟨"tables", tables⟩]

theorem schemaless_offered {composites tables : List SqlObject}
    (hc : catalog.expand (catalog.compositeRoots filter) = .ok composites)
    (ht : catalog.expand (catalog.tableRoots filter) = .ok tables) :
    Schemaless (offered catalog filter composites tables) := by
  have known : ∀ part ∈ offered catalog filter composites tables,
      part.objects ⊆ catalog.objects := by
    simp only [offered, List.forall_mem_cons]
    exact ⟨Catalog.enumObjects_subset, Catalog.expand_subset Catalog.compositeRoots_subset hc,
      Catalog.expand_subset Catalog.tableRoots_subset ht, List.forall_mem_nil _⟩
  intro part listed object given schema
  cases object with
  | schema name => exact Catalog.schema_not_mem_objects (known part listed given)
  | enum definition => cases schema
  | composite definition => cases schema
  | table definition => cases schema

theorem parts_of_offered (reachable : catalog.Reachable) {rest : List Section}
    (defined : Schemaless rest) :
    Parts ⟨withoutRepeats [] (⟨"schemas", catalog.schemaObjects acceptAll⟩ :: rest)⟩
      catalog.schemas (withoutRepeats [] rest) where
  sections := withoutRepeats_schemas reachable defined
  defined := schemaless_withoutRepeats defined

/-- Unrelated additions leave a script as it was, but for further schemas, or leave it to fail for
the same cycle. -/
theorem addsSchemas_of_unrelated (reachable : catalog.Reachable)
    (merged : catalog.merge collections = .ok larger)
    (unrelated : catalog.Unrelated collections filter) :
    (∃ cycle, ofCatalog catalog filter = .error cycle ∧ ofCatalog larger filter = .error cycle) ∨
      ∃ before after, ofCatalog catalog filter = .ok before ∧ ofCatalog larger filter = .ok after ∧
        before.AddsSchemas after := by
  have extended := Catalog.extends_merge merged
  have alike := unrelated.dependsAlike extended
  have fewer := extended.schemas_subset reachable (.merge reachable merged)
  have composites_eq : larger.expand (larger.compositeRoots filter) =
      catalog.expand (catalog.compositeRoots filter) := by
    rw [unrelated.compositeRoots_eq extended, alike.expand_eq Catalog.compositeRoots_subset]
  have tables_eq : larger.expand (larger.tableRoots filter) =
      catalog.expand (catalog.tableRoots filter) := by
    rw [unrelated.tableRoots_eq extended, alike.expand_eq Catalog.tableRoots_subset]
  have enums_eq := unrelated.enumObjects_eq extended
  simp only [ofCatalog, composites_eq, tables_eq, enums_eq]
  cases hc : catalog.expand (catalog.compositeRoots filter) with
  | error cycle => exact .inl ⟨cycle, rfl, rfl⟩
  | ok composites =>
    cases ht : catalog.expand (catalog.tableRoots filter) with
    | error cycle => exact .inl ⟨cycle, rfl, rfl⟩
    | ok tables =>
      have defined := schemaless_offered hc ht
      have parts := parts_of_offered reachable defined
      have others := parts_of_offered (.merge reachable merged) defined
      exact .inr ⟨_, _, rfl, rfl, parts.addsSchemas others fewer⟩

end Emission

namespace Sample

def studio : Identifier := ⟨"studio", by decide⟩

def brush : EnumType := ⟨⟨studio, ⟨"brush", by decide⟩, "", true⟩, ["flat", "round"], by decide⟩

def wider : Catalog where
  enums := ⟨[color, brush], by decide⟩
  composites := ⟨[money, offer], by decide⟩
  tables := ⟨[orders, offers], by decide⟩
  schemas := [sales, studio]

theorem unrelated_onlyOrders :
    catalog.Unrelated [⟨[offers], [offer], []⟩, ⟨[], [], [brush]⟩] onlyOrders where
  unreferenced := by decide
  rejected := by decide

theorem addsSchemas_wider :
    catalog.Reachable ∧
    catalog.merge [⟨[offers], [offer], []⟩, ⟨[], [], [brush]⟩] = .ok wider ∧
    catalog.Unrelated [⟨[offers], [offer], []⟩, ⟨[], [], [brush]⟩] onlyOrders ∧
    ∃ after, Emission.ofCatalog wider onlyOrders = .ok after ∧ ordersScript.AddsSchemas after := by
  have merged : catalog.merge [⟨[offers], [offer], []⟩, ⟨[], [], [brush]⟩] = .ok wider := by
    decide
  refine ⟨reachable, merged, unrelated_onlyOrders, ?_⟩
  rcases Emission.addsSchemas_of_unrelated reachable merged unrelated_onlyOrders with
    ⟨cycle, closes, _⟩ | ⟨before, after, built, builtWider, adds⟩
  · cases closes.symm.trans ordersScript_built
  · cases built.symm.trans ordersScript_built
    exact ⟨after, builtWider, adds⟩

end Sample

end SchemaScript
