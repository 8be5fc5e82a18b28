import SchemaScript.Definition
import SchemaScript.SqlObject

/-!
Catalogs of definitions. Collections are merged all together or not at all; a name may occur once
in each category, and the schemas are those that the definitions mention. A category grows at the
end, so it lists its definitions in the order in which they came.
-/

namespace SchemaScript

class Named (α : Type) where
  qualifiedName : α → QualifiedName

instance : Named EnumType := ⟨fun definition => definition.qualifiedName⟩

instance : Named CompositeType := ⟨fun definition => definition.qualifiedName⟩

instance : Named Table := ⟨fun definition => definition.qualifiedName⟩

structure NamedList (α : Type) [Named α] where
  items : List α
  nodup : (items.map Named.qualifiedName).Nodup

namespace NamedList

variable {α : Type} [Named α]

theorem ext_items {a b : NamedList α} (h : a.items = b.items) : a = b := by
  cases a
  cases b
  cases h
  rfl

instance [DecidableEq α] : DecidableEq (NamedList α) := fun a b =>
  if h : a.items = b.items then .isTrue (ext_items h) else .isFalse fun same => h (same ▸ rfl)

instance [Repr α] : Repr (NamedList α) := ⟨fun list => reprPrec list.items⟩

def empty : NamedList α := ⟨[], List.nodup_nil⟩

def names (list : NamedList α) : List QualifiedName := list.items.map Named.qualifiedName

def size (list : NamedList α) : Nat := list.items.length

def find? (list : NamedList α) (name : String) : Option α :=
  list.items.find? fun item => (Named.qualifiedName item).text == name

def push (list : NamedList α) (item : α) (fresh : Named.qualifiedName item ∉ list.names) :
    NamedList α where
  items := list.items ++ [item]
  nodup := by
    rw [List.map_append, List.nodup_append]
    refine ⟨list.nodup, by simp, ?_⟩
    rintro a ha b hb rfl
    simp only [List.map_cons, List.map_nil, List.mem_singleton] at hb
    exact fresh (hb ▸ ha)

/-- Adds definitions in order, and lists the names of those that are left out because an earlier
definition has their name. -/
def stage (list : NamedList α) : List α → NamedList α × List QualifiedName
  | [] => (list, [])
  | item :: items =>
    if fresh : Named.qualifiedName item ∉ list.names then (list.push item fresh).stage items
    else
      let (staged, duplicates) := list.stage items
      (staged, Named.qualifiedName item :: duplicates)

@[simp] theorem items_push (list : NamedList α) (item : α)
    (fresh : Named.qualifiedName item ∉ list.names) :
    (list.push item fresh).items = list.items ++ [item] := rfl

@[simp] theorem stage_nil (list : NamedList α) : list.stage [] = (list, []) := rfl

theorem find?_mem {list : NamedList α} {name : String} {item : α}
    (h : list.find? name = some item) : item ∈ list.items := List.mem_of_find?_eq_some h

theorem find?_name {list : NamedList α} {name : String} {item : α}
    (h : list.find? name = some item) : (Named.qualifiedName item).text = name := by
  simpa using List.find?_some h

end NamedList

def distinctFrom {α κ : Type} [DecidableEq κ] (key : α → κ) (seen : List κ) : List α → List α
  | [] => []
  | a :: rest =>
    if key a ∈ seen then distinctFrom key seen rest
    else a :: distinctFrom key (key a :: seen) rest

def distinctBy {α κ : Type} [DecidableEq κ] (key : α → κ) (items : List α) : List α :=
  distinctFrom key [] items

structure Catalog where
  enums : NamedList EnumType
  composites : NamedList CompositeType
  tables : NamedList Table
  schemas : List Identifier
deriving DecidableEq, Repr

structure Duplicate where
  category : ObjectKind
  name : QualifiedName
deriving DecidableEq, Repr

def Duplicate.text (duplicate : Duplicate) : String :=
  duplicate.category.text ++ " " ++ duplicate.name.text

def duplicatesMessage (duplicates : List Duplicate) : String :=
  "Duplicate definitions: " ++ ", ".intercalate (duplicates.map (·.text))

namespace Catalog

def empty : Catalog := ⟨.empty, .empty, .empty, []⟩

def clear (catalog : Catalog) : Catalog :=
  { catalog with enums := .empty, composites := .empty, tables := .empty, schemas := [] }

def size (catalog : Catalog) : Nat :=
  catalog.enums.size + catalog.composites.size + catalog.tables.size

def isEmpty (catalog : Catalog) : Bool := catalog.size == 0

def stageCollection (catalog : Catalog) (collection : Collection) : Catalog × List Duplicate :=
  let (enums, enumNames) := catalog.enums.stage collection.enums
  let (composites, compositeNames) := catalog.composites.stage collection.composites
  let (tables, tableNames) := catalog.tables.stage collection.tables
  ({ catalog with enums, composites, tables },
    enumNames.map (⟨.enum, ·⟩) ++ compositeNames.map (⟨.composite, ·⟩) ++
      tableNames.map (⟨.table, ·⟩))

def stage (catalog : Catalog) : List Collection → Catalog × List Duplicate
  | [] => (catalog, [])
  | collection :: rest =>
    let (staged, duplicates) := catalog.stageCollection collection
    let (result, more) := staged.stage rest
    (result, duplicates ++ more)

def headings (catalog : Catalog) : List Heading :=
  catalog.enums.items.map (·.toHeading) ++ catalog.composites.items.map (·.toHeading) ++
    catalog.tables.items.map (·.toHeading)

def mentionedSchemas (catalog : Catalog) : List Identifier :=
  distinctBy id (catalog.headings.map (·.schema))

/-- All collections together, or the duplicates that prevent it. -/
def merge (catalog : Catalog) (collections : List Collection) :
    Except (List Duplicate) Catalog :=
  match catalog.stage collections with
  | (staged, []) => .ok { staged with schemas := staged.mentionedSchemas }
  | (_, duplicates) => .error duplicates

def objects (catalog : Catalog) : List SqlObject :=
  catalog.enums.items.map .enum ++ catalog.composites.items.map .composite ++
    catalog.tables.items.map .table

@[simp] theorem enum_mem_objects {catalog : Catalog} {definition : EnumType} :
    .enum definition ∈ catalog.objects ↔ definition ∈ catalog.enums.items := by
  simp [objects]

@[simp] theorem composite_mem_objects {catalog : Catalog} {definition : CompositeType} :
    .composite definition ∈ catalog.objects ↔ definition ∈ catalog.composites.items := by
  simp [objects]

@[simp] theorem table_mem_objects {catalog : Catalog} {definition : Table} :
    .table definition ∈ catalog.objects ↔ definition ∈ catalog.tables.items := by
  simp [objects]

@[simp] theorem schema_not_mem_objects {catalog : Catalog} {name : String} :
    .schema name ∉ catalog.objects := by
  simp [objects]

/-- The definition of a kind with a qualified name. A schema needs no definition. -/
def find? (catalog : Catalog) (kind : ObjectKind) (name : String) : Option SqlObject :=
  match kind with
  | .enum => (catalog.enums.find? name).map .enum
  | .composite => (catalog.composites.find? name).map .composite
  | .table => (catalog.tables.find? name).map .table
  | .schema => some (.schema name)

/-- What a column type refers to. Enumerations come before composite types, and tables come last
and only where they may be referred to. -/
def resolve (catalog : Catalog) (type : ColumnType) (withTables : Bool) : Option SqlObject :=
  match type with
  | .literal _ => none
  | .reference name =>
    match catalog.enums.find? name with
    | some definition => some (.enum definition)
    | none =>
      match catalog.composites.find? name with
      | some definition => some (.composite definition)
      | none => if withTables then (catalog.tables.find? name).map .table else none

theorem resolve_mem {catalog : Catalog} {type : ColumnType} {withTables : Bool}
    {object : SqlObject} (h : catalog.resolve type withTables = some object) :
    object ∈ catalog.objects := by
  unfold resolve at h
  unfold objects
  split at h
  · cases h
  · split at h
    · next found =>
      cases h
      simp [NamedList.find?_mem found]
    · split at h
      · next found =>
        cases h
        simp [NamedList.find?_mem found]
      · split at h
        · obtain ⟨table, found, rfl⟩ := Option.map_eq_some_iff.1 h
          simp [NamedList.find?_mem found]
        · cases h

end Catalog

end SchemaScript
