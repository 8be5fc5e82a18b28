import SchemaScript.Proofs.CreationOrder
import SchemaScript.Proofs.Cycles

/-!
Names in a script. A reference names every definition with its qualified name, whatever its
category. If names go round in no circle, a script can be made, and in it what a column names is
created before the column. This does not hold of an attribute of a composite type that names a
table, since attributes may not refer to tables.
-/

namespace SchemaScript

namespace Catalog

variable {catalog : Catalog}

def Names (catalog : Catalog) (object other : SqlObject) : Prop :=
  other ∈ catalog.objects ∧ ∃ column ∈ object.columns, column.type = .reference other.name

def NamesAcyclic (catalog : Catalog) : Prop :=
  ∀ object, ¬ Relation.TransGen catalog.Names object object

theorem namesAcyclic_of_rank (rank : SqlObject → Nat)
    (descends : ∀ object ∈ catalog.objects, ∀ column ∈ object.columns,
      ∀ other ∈ catalog.objects, column.type = .reference other.name → rank other < rank object) :
    catalog.NamesAcyclic := by
  have lower : ∀ {a b : SqlObject}, a ∈ catalog.objects → Relation.TransGen catalog.Names a b →
      rank b < rank a := by
    intro a b known leads
    induction leads with
    | single names =>
      obtain ⟨column, listed, refers⟩ := names.2
      exact descends a known column listed _ names.1 refers
    | @tail b c earlier names ih =>
      obtain ⟨column, listed, refers⟩ := names.2
      have passed : b ∈ catalog.objects := by
        cases earlier with
        | single first => exact first.1
        | tail _ last => exact last.1
      exact Nat.lt_trans (descends b passed column listed _ names.1 refers) ih
  intro object circle
  have known : object ∈ catalog.objects := by
    cases circle with
    | single names => exact names.1
    | tail _ names => exact names.1
  exact Nat.lt_irrefl _ (lower known circle)

theorem reference_of_resolve {type : ColumnType} {withTables : Bool} {object : SqlObject}
    (h : catalog.resolve type withTables = some object) : type = .reference object.name := by
  unfold resolve at h
  split at h
  · cases h
  · split at h
    · next found =>
      cases h
      exact congrArg ColumnType.reference (NamedList.find?_name found).symm
    · split at h
      · next found =>
        cases h
        exact congrArg ColumnType.reference (NamedList.find?_name found).symm
      · split at h
        · obtain ⟨table, found, rfl⟩ := Option.map_eq_some_iff.1 h
          exact congrArg ColumnType.reference (NamedList.find?_name found).symm
        · cases h

theorem find?_of_mem {α : Type} [Named α] {list : NamedList α} {item : α}
    (listed : item ∈ list.items) : list.find? (Named.qualifiedName item).text = some item :=
  NamedList.find?_eq_some_iff.2 ⟨listed, rfl⟩

/-- A name leads to a definition unless only tables have it and tables may not be referred to. -/
theorem exists_resolve_of_mem {other : SqlObject} (known : other ∈ catalog.objects)
    {withTables : Bool} (visible : other.kind = .table → withTables = true) :
    ∃ target, catalog.resolve (.reference other.name) withTables = some target := by
  cases inEnums : catalog.enums.find? other.name with
  | some definition => exact ⟨.enum definition, by simp only [resolve, inEnums]⟩
  | none =>
    cases inComposites : catalog.composites.find? other.name with
    | some definition =>
      exact ⟨.composite definition, by simp only [resolve, inEnums, inComposites]⟩
    | none =>
      cases other with
      | schema name => exact absurd known schema_not_mem_objects
      | enum definition =>
        cases (find?_of_mem (enum_mem_objects.1 known)).symm.trans inEnums
      | composite definition =>
        cases (find?_of_mem (composite_mem_objects.1 known)).symm.trans inComposites
      | table definition =>
        have found : catalog.tables.find? (SqlObject.table definition).name = some definition :=
          find?_of_mem (table_mem_objects.1 known)
        refine ⟨.table definition, ?_⟩
        simp only [resolve, inEnums, inComposites, visible rfl, ↓reduceIte, found, Option.map_some]

theorem dependsOn_le_names : catalog.DependsOn ≤ catalog.Names := by
  rintro object other ⟨column, listed, refers⟩
  exact ⟨resolve_mem refers, column, listed, reference_of_resolve refers⟩

theorem NamesAcyclic.acyclicUnder (acyclic : catalog.NamesAcyclic) (filter : NameFilter) :
    catalog.AcyclicUnder filter := by
  have free : ∀ root, ¬ catalog.LeadsToCycle root := by
    rintro root ⟨object, _, circular⟩
    exact acyclic object (Relation.TransGen.mono dependsOn_le_names _ _ circular)
  exact ⟨fun _ _ _ => free _, fun _ _ _ => free _⟩

end Catalog

namespace Emission

open Statement

/-- What a column names, of all that is taken into account, is created before the object that has
the column: some definition of that name is. -/
def CreatesNamedFirst (catalog : Catalog) (counts : SqlObject → SqlObject → Prop)
    (emission : Emission) (statements : List Statement) : Prop :=
  ∀ object ∈ emission.objects, create object ∈ statements ∧
    ∀ before, before ++ [create object] <+: statements →
      ∀ column ∈ object.columns, ∀ other ∈ catalog.objects,
        counts object other → column.type = .reference other.name →
          ∃ target ∈ catalog.objects, target.name = other.name ∧ create target ∈ before

def MayRefer (object other : SqlObject) : Prop := other.kind = .table → object.kind = .table

instance (object other : SqlObject) : Decidable (MayRefer object other) :=
  inferInstanceAs (Decidable (_ → _))

variable {catalog : Catalog}

/-- Without circles of names a script is made, and it names nothing too early to which a column may
refer. -/
theorem exists_creates_named_first (acyclic : catalog.NamesAcyclic) (destructive : Bool) :
    ∃ emission, ofCatalog catalog acceptAll = .ok emission ∧
      CreatesNamedFirst catalog MayRefer emission (emission.statements destructive) := by
  obtain ⟨emission, built⟩ := exists_ofCatalog_iff.2 (acyclic.acyclicUnder acceptAll)
  refine ⟨emission, built, fun object listed => ⟨create_mem_statements.2 listed, ?_⟩⟩
  intro before stands column inside other known mayRefer refers
  have visible : other.kind = .table → (object.kind == .table) = true :=
    fun table => beq_iff_eq.2 (mayRefer table)
  obtain ⟨target, found⟩ := Catalog.exists_resolve_of_mem known visible
  rw [← refers] at found
  obtain ⟨earlier, first, created⟩ := exists_earlier_of_create stands
  have depends := Catalog.mem_dependencies.2 ⟨column, inside, found⟩
  refine ⟨target, Catalog.resolve_mem found, ?_, ?_⟩
  · have same := (Catalog.reference_of_resolve found).symm.trans refers
    exact ColumnType.reference.inj same
  · exact created (create_mem_statements.2 (preceded_objects built earlier object first depends))

end Emission

namespace Sample

def layer (object : SqlObject) : Nat :=
  match object.kind with
  | .schema => 0
  | .enum => 0
  | .composite => 1
  | .table => 2

theorem namesAcyclic : catalog.NamesAcyclic :=
  Catalog.namesAcyclic_of_rank layer (by decide +kernel)

theorem exists_creates_named_first_orders :
    ∃ emission, Emission.ofCatalog catalog acceptAll = .ok emission ∧
      Emission.CreatesNamedFirst catalog Emission.MayRefer emission (emission.statements true) :=
  Emission.exists_creates_named_first namesAcyclic true

def customers : Table where
  schema := sales
  name := ⟨"customers", by decide⟩
  comment := ""
  options := ⟨false⟩
  columns := [⟨.literal "bigint", ⟨"number", by decide⟩, true, "", false⟩]
  columns_ne_nil := by decide
  one_identity := by decide

def contact : CompositeType where
  schema := sales
  name := ⟨"contact", by decide⟩
  comment := ""
  columns := [⟨.reference "sales.customers", ⟨"customer", by decide⟩, true, "", false⟩]
  no_identity := by decide

def contacts : Catalog where
  enums := .empty
  composites := ⟨[contact], by decide⟩
  tables := ⟨[customers], by decide⟩
  schemas := [sales]

def contactsScript : Emission :=
  ⟨[⟨"schemas", [.schema "sales"]⟩, ⟨"enums", []⟩, ⟨"composites", [.composite contact]⟩,
    ⟨"tables", [.table customers]⟩]⟩

theorem contact_before_customers :
    contacts.Reachable ∧ contacts.NamesAcyclic ∧
      Emission.ofCatalog contacts acceptAll = .ok contactsScript ∧
      ¬ Emission.CreatesNamedFirst contacts (fun _ _ => True) contactsScript
        (contactsScript.statements false) := by
  refine ⟨.merge .empty (show Catalog.empty.merge [⟨[customers], [contact], []⟩] = _ by decide),
    Catalog.namesAcyclic_of_rank (fun object => if object.kind = .composite then 1 else 0)
      (by decide +kernel), by cbv, ?_⟩
  intro first
  obtain ⟨target, known, _, made⟩ := (first (.composite contact) (by decide)).2
    [.create (.schema "sales")] ⟨[.create (.table customers)], rfl⟩ _ List.mem_cons_self
    (.table customers) (by decide) trivial rfl
  obtain rfl : target = .schema "sales" := by simpa using made
  exact Catalog.schema_not_mem_objects known

end Sample

end SchemaScript
