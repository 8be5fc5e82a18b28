import Mathlib.Data.List.Nodup
import SchemaScript.Catalog

/-!
Looking definitions up. A category holds at most one definition of a name, so what is found under
a name is the one definition that is listed with it.
-/

namespace SchemaScript

namespace NamedList

variable {α : Type} [Named α] {list : NamedList α}

theorem eq_of_name_eq {a b : α} (ha : a ∈ list.items) (hb : b ∈ list.items)
    (same : (Named.qualifiedName a).text = (Named.qualifiedName b).text) : a = b :=
  List.inj_on_of_nodup_map list.nodup ha hb (QualifiedName.text_injective same)

theorem find?_eq_some_iff {name : String} {item : α} :
    list.find? name = some item ↔
      item ∈ list.items ∧ (Named.qualifiedName item).text = name := by
  constructor
  · exact fun found => ⟨find?_mem found, find?_name found⟩
  · rintro ⟨listed, rfl⟩
    cases found : list.find? (Named.qualifiedName item).text with
    | none =>
      have absent := List.find?_eq_none.1 found item listed
      simp at absent
    | some other => rw [eq_of_name_eq (find?_mem found) listed (find?_name found)]

theorem map_find?_eq_some_iff {β : Type} {make : α → β} {name : String} {result : β} :
    (list.find? name).map make = some result ↔
      ∃ item ∈ list.items, (Named.qualifiedName item).text = name ∧ make item = result := by
  simp only [Option.map_eq_some_iff, find?_eq_some_iff, and_assoc]

end NamedList

namespace Catalog

variable {catalog : Catalog}

/-- Whether an object is a definition of the catalog or a schema, which needs no definition. -/
def Knows (catalog : Catalog) (object : SqlObject) : Prop :=
  object ∈ catalog.objects ∨ object.kind = .schema

@[simp] theorem knows_schema {name : String} : catalog.Knows (.schema name) := Or.inr rfl

@[simp] theorem knows_enum {definition : EnumType} :
    catalog.Knows (.enum definition) ↔ definition ∈ catalog.enums.items := by
  simp [Knows, SqlObject.kind]

@[simp] theorem knows_composite {definition : CompositeType} :
    catalog.Knows (.composite definition) ↔ definition ∈ catalog.composites.items := by
  simp [Knows, SqlObject.kind]

@[simp] theorem knows_table {definition : Table} :
    catalog.Knows (.table definition) ↔ definition ∈ catalog.tables.items := by
  simp [Knows, SqlObject.kind]

theorem eq_of_key_eq {a b : SqlObject} (ha : catalog.Knows a) (hb : catalog.Knows b)
    (same : a.key = b.key) : a = b := by
  obtain ⟨kinds, names⟩ := ObjectKey.mk.inj same
  cases a <;> cases b <;> cases kinds
  case schema => exact congrArg SqlObject.schema names
  case enum =>
    rw [knows_enum] at ha hb
    exact congrArg SqlObject.enum (NamedList.eq_of_name_eq ha hb names)
  case composite =>
    rw [knows_composite] at ha hb
    exact congrArg SqlObject.composite (NamedList.eq_of_name_eq ha hb names)
  case table =>
    rw [knows_table] at ha hb
    exact congrArg SqlObject.table (NamedList.eq_of_name_eq ha hb names)

theorem nodup_keys_of_items {α : Type} [Named α] (make : α → SqlObject) (kind : ObjectKind)
    (keyed : ∀ item, (make item).key = ⟨kind, (Named.qualifiedName item).text⟩)
    (list : NamedList α) : ((list.items.map make).map (·.key)).Nodup := by
  rw [List.map_map, List.Nodup, List.pairwise_map]
  refine (List.pairwise_map.1 list.nodup).imp fun {a b} different same => different ?_
  simp only [Function.comp_apply, keyed, ObjectKey.mk.injEq, true_and] at same
  exact QualifiedName.text_injective same

theorem distinguished {objects : List SqlObject} (known : ∀ a ∈ objects, catalog.Knows a) :
    ∀ a ∈ objects, ∀ b ∈ objects, a.key = b.key → a = b :=
  fun a ha b hb => eq_of_key_eq (known a ha) (known b hb)

theorem knows_of_find? {kind : ObjectKind} {name : String} {object : SqlObject}
    (h : catalog.find? kind name = some object) :
    catalog.Knows object ∧ object.key = ⟨kind, name⟩ := by
  cases kind with
  | schema =>
    cases h
    exact ⟨knows_schema, rfl⟩
  | enum =>
    obtain ⟨definition, listed, rfl, rfl⟩ := NamedList.map_find?_eq_some_iff.1 h
    exact ⟨knows_enum.2 listed, rfl⟩
  | composite =>
    obtain ⟨definition, listed, rfl, rfl⟩ := NamedList.map_find?_eq_some_iff.1 h
    exact ⟨knows_composite.2 listed, rfl⟩
  | table =>
    obtain ⟨definition, listed, rfl, rfl⟩ := NamedList.map_find?_eq_some_iff.1 h
    exact ⟨knows_table.2 listed, rfl⟩

theorem find?_key {object : SqlObject} (known : catalog.Knows object) :
    catalog.find? object.kind object.name = some object := by
  cases object with
  | schema name => rfl
  | enum definition =>
    exact NamedList.map_find?_eq_some_iff.2 ⟨definition, knows_enum.1 known, rfl, rfl⟩
  | composite definition =>
    exact NamedList.map_find?_eq_some_iff.2 ⟨definition, knows_composite.1 known, rfl, rfl⟩
  | table definition =>
    exact NamedList.map_find?_eq_some_iff.2 ⟨definition, knows_table.1 known, rfl, rfl⟩

theorem find?_eq_some_iff {kind : ObjectKind} {name : String} {object : SqlObject} :
    catalog.find? kind name = some object ↔
      catalog.Knows object ∧ object.key = ⟨kind, name⟩ := by
  refine ⟨knows_of_find?, ?_⟩
  rintro ⟨known, same⟩
  obtain ⟨rfl, rfl⟩ := ObjectKey.mk.inj same
  exact find?_key known

end Catalog

end SchemaScript
