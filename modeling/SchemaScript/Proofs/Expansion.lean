import SchemaScript.Proofs.Cycles

/-!
Definitions built along with all that they refer to. The walks from the definitions that a filter
accepts, read backwards and without repeats, list what these lead to in an order in which it can be
created. They do so unless one of the accepted definitions leads to a cycle.
-/

namespace SchemaScript

namespace Catalog

variable {catalog : Catalog} {kind : ObjectKind} {filter : NameFilter}

def Accepts (catalog : Catalog) (kind : ObjectKind) (filter : NameFilter) (object : SqlObject) :
    Prop :=
  object ∈ catalog.objects ∧ object.kind = kind ∧ filter object.name = true

theorem mem_compositeRoots_iff {object : SqlObject} :
    object ∈ catalog.compositeRoots filter ↔ catalog.Accepts .composite filter object := by
  have defined : object ∈ catalog.composites.items.map .composite ↔
      object ∈ catalog.objects ∧ object.kind = .composite := by
    cases object <;> simp [SqlObject.kind]
  rw [compositeRoots, List.mem_filter, defined, Accepts, and_assoc]

theorem mem_tableRoots_iff {object : SqlObject} :
    object ∈ catalog.tableRoots filter ↔ catalog.Accepts .table filter object := by
  have defined : object ∈ catalog.tables.items.map .table ↔
      object ∈ catalog.objects ∧ object.kind = .table := by
    cases object <;> simp [SqlObject.kind]
  rw [tableRoots, List.mem_filter, defined, Accepts, and_assoc]

theorem exists_roots (columned : kind.hasColumns = true) :
    ∃ roots, (∀ object, object ∈ roots ↔ catalog.Accepts kind filter object) ∧
      catalog.buildKind kind filter true = catalog.expand roots := by
  cases kind with
  | schema => cases columned
  | enum => cases columned
  | composite => exact ⟨_, fun _ => mem_compositeRoots_iff, rfl⟩
  | table => exact ⟨_, fun _ => mem_tableRoots_iff, rfl⟩

/-- What is built of the accepted definitions of a kind: all that they lead to and nothing else,
each object once and behind everything that its columns refer to. -/
structure Expands (catalog : Catalog) (kind : ObjectKind) (filter : NameFilter) : Prop where
  builds : (∃ objects, catalog.buildKind kind filter true = .ok objects) ↔
    ∀ root, catalog.Accepts kind filter root → ¬ catalog.LeadsToCycle root
  members : ∀ objects, catalog.buildKind kind filter true = .ok objects →
    ∀ object, object ∈ objects ↔
      ∃ root, catalog.Accepts kind filter root ∧ catalog.Reaches root object
  once : ∀ objects, catalog.buildKind kind filter true = .ok objects →
    (objects.map (·.key)).Nodup
  target_first : ∀ objects, catalog.buildKind kind filter true = .ok objects →
    ∀ (before : List SqlObject) (object : SqlObject), before ++ [object] <+: objects →
      ∀ column ∈ object.columns, ∀ target : SqlObject,
        catalog.columnTarget object column = some target → target ∈ before

theorem nodup_keys_expand {roots objects : List SqlObject}
    (expanded : catalog.expand roots = .ok objects) : (objects.map (·.key)).Nodup := by
  obtain ⟨_, rfl⟩ := expand_eq_ok_iff.1 expanded
  exact nodup_keys_distinctFrom [] _

theorem expands_of_hasColumns (catalog : Catalog) (filter : NameFilter)
    (columned : kind.hasColumns = true) : catalog.Expands kind filter := by
  obtain ⟨roots, selected, built⟩ := @exists_roots catalog kind filter columned
  have known : roots ⊆ catalog.objects := fun root listed => ((selected root).1 listed).1
  constructor
  · simp only [built, exists_expand_iff known, selected]
  · intro objects done object
    rw [built] at done
    simp only [mem_expand_iff known done, selected]
  · intro objects done
    exact nodup_keys_expand (built ▸ done)
  · intro objects done before object stands column listed target refers
    rw [built] at done
    exact preceded_expand known done before object stands
      (mem_dependencies.2 ⟨column, listed, refers⟩)

end Catalog

namespace Sample

def onlyOffers : NameFilter := fun name => name == "sales.offer"

theorem expands_offers :
    ObjectKind.table.hasColumns = true ∧ tangle.Expands .table onlyOffers ∧
      tangle.buildKind .table onlyOffers true =
        .ok [.enum color, .composite money, .composite offer, .table offers] ∧
      tangle.buildKind .table acceptAll true =
        .error ⟨["sales.node", "sales.branch", "sales.node"]⟩ :=
  ⟨rfl, Catalog.expands_of_hasColumns tangle onlyOffers rfl, by decide +kernel, by decide +kernel⟩

end Sample

end SchemaScript
