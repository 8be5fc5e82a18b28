import SchemaScript.Proofs.CycleReport
import SchemaScript.Proofs.Naming

/-!
Which walks report a cycle. A walk does exactly if its root leads to an object that refers back to
itself, so it does exactly if one of the objects that the root refers to has such a walk. How often
and along how many ways objects are shared is of no account, and neither are names that a table
shares with other definitions.
-/

namespace SchemaScript

namespace Catalog

variable {catalog : Catalog} {root other : SqlObject}

def MeetsAgain (catalog : Catalog) (root : SqlObject) : Prop :=
  ∃ object again, catalog.Reaches root object ∧
    Relation.TransGen catalog.DependsOn object again ∧ again.key = object.key

theorem meetsAgain_iff_leadsToCycle (known : root ∈ catalog.objects) :
    catalog.MeetsAgain root ↔ catalog.LeadsToCycle root := by
  constructor
  · rintro ⟨object, again, reached, leads, same⟩
    have passed : object ∈ catalog.objects := reached.mem_objects known
    have stands : again ∈ catalog.objects :=
      Reaches.mem_objects passed leads.to_reflTransGen
    obtain rfl : again = object := eq_of_key_eq (.inl stands) (.inl passed) same
    exact ⟨again, reached, leads⟩
  · rintro ⟨object, reached, circular⟩
    exact ⟨object, object, reached, circular, rfl⟩

theorem exists_cycle_iff (known : root ∈ catalog.objects) :
    (∃ cycle, (catalog.walk root).cycle? = some cycle) ↔ catalog.LeadsToCycle root := by
  rw [← Option.ne_none_iff_exists', ne_eq, cycle?_walk_eq_none_iff known, not_not]

theorem leadsToCycle_iff_exists_next :
    catalog.LeadsToCycle root ↔
      ∃ next, catalog.DependsOn root next ∧ catalog.LeadsToCycle next := by
  constructor
  · rintro ⟨object, reached, circular⟩
    obtain ⟨next, depends, back⟩ := Relation.TransGen.head'_iff.1
      (Relation.TransGen.trans_right reached circular)
    exact ⟨next, depends, object, back, circular⟩
  · rintro ⟨next, depends, object, reached, circular⟩
    exact ⟨object, .head depends reached, circular⟩

structure Diamond (catalog : Catalog) (top left right bottom : SqlObject) : Prop where
  top_refers : ∀ next, catalog.DependsOn top next → next = left ∨ next = right
  left_refers : ∀ next, catalog.DependsOn left next → next = bottom
  right_refers : ∀ next, catalog.DependsOn right next → next = bottom
  bottom_free : ∀ next, ¬ catalog.DependsOn bottom next

theorem Diamond.not_leadsToCycle {left right bottom : SqlObject}
    (diamond : catalog.Diamond root left right bottom) : ¬ catalog.LeadsToCycle root := by
  intro leads
  obtain ⟨middle, first, leads⟩ := leadsToCycle_iff_exists_next.1 leads
  obtain ⟨last, second, leads⟩ := leadsToCycle_iff_exists_next.1 leads
  have shared : last = bottom := by
    rcases diamond.top_refers middle first with rfl | rfl
    · exact diamond.left_refers last second
    · exact diamond.right_refers last second
  obtain ⟨next, third, _⟩ := leadsToCycle_iff_exists_next.1 leads
  exact diamond.bottom_free next (shared ▸ third)

theorem not_leadsToCycle_of_enum (enum : other.kind = .enum) : ¬ catalog.LeadsToCycle other := by
  intro leads
  obtain ⟨next, ⟨column, listed, _⟩, _⟩ := leadsToCycle_iff_exists_next.1 leads
  cases other with
  | schema name => cases listed
  | enum definition => cases listed
  | composite definition => cases enum
  | table definition => cases enum

theorem eq_or_enum_of_resolve (known : other ∈ catalog.objects) (notTable : other.kind ≠ .table)
    {withTables : Bool} {target : SqlObject}
    (found : catalog.resolve (.reference other.name) withTables = some target) :
    target = other ∨ target.kind = .enum := by
  unfold resolve at found
  split at found
  · next same => cases same
  · next name same =>
    cases same
    split at found
    · cases found
      exact .inr rfl
    · next noEnum =>
      cases other with
      | schema name => exact absurd known schema_not_mem_objects
      | enum definition => cases (find?_of_mem (enum_mem_objects.1 known)).symm.trans noEnum
      | table definition => exact absurd rfl notTable
      | composite definition =>
        have own : catalog.composites.find? (SqlObject.composite definition).name =
            some definition := find?_of_mem (composite_mem_objects.1 known)
        rw [own] at found
        cases found
        exact .inl rfl

/-- When the walk from an object, followed to its end, reports a cycle. -/
structure DetectsCycles (catalog : Catalog) (root : SqlObject) : Prop where
  raises : ∃ walk, catalog.walkUpTo none root = .ok walk ∧
    ((∃ cycle, walk.cycle? = some cycle) ↔ catalog.MeetsAgain root)
  /-- It is of no account how many columns refer to an object, or how many ways lead to it. -/
  inherits : (∃ cycle, (catalog.walk root).cycle? = some cycle) ↔
    ∃ next, catalog.DependsOn root next ∧ ∃ cycle, (catalog.walk next).cycle? = some cycle
  diamond : ∀ left right bottom, catalog.Diamond root left right bottom →
    (catalog.walk root).cycle? = none
  same_name : ∀ table other, root = .table table → other ∈ catalog.objects →
    other.name = root.name →
    other.kind = .enum ∨ other.kind = .composite ∧ (catalog.walk other).cycle? = none →
    (∀ column ∈ table.columns, ∀ target, catalog.columnTarget root column = some target →
      column.type = .reference root.name) →
    (catalog.walk root).cycle? = none

theorem not_leadsToCycle_of_same_name {table : Table} (known : other ∈ catalog.objects)
    (same : other.name = (SqlObject.table table).name) (notTable : other.kind ≠ .table)
    (free : ¬ catalog.LeadsToCycle other)
    (refers : ∀ column ∈ table.columns, ∀ target,
      catalog.columnTarget (.table table) column = some target →
        column.type = .reference (SqlObject.table table).name) :
    ¬ catalog.LeadsToCycle (.table table) := by
  intro leads
  obtain ⟨next, ⟨column, listed, found⟩, leads⟩ := leadsToCycle_iff_exists_next.1 leads
  have named := refers column listed next found
  rw [columnTarget, named, ← same] at found
  rcases eq_or_enum_of_resolve known notTable found with rfl | enum
  · exact free leads
  · exact not_leadsToCycle_of_enum enum leads

theorem kind_ne_schema_of_mem (known : root ∈ catalog.objects) : root.kind ≠ .schema := by
  cases root with
  | schema name => exact absurd known schema_not_mem_objects
  | enum definition => exact nofun
  | composite definition => exact nofun
  | table definition => exact nofun

/-- A walk reports a cycle exactly if there is one below its root. -/
theorem detects_cycles (known : root ∈ catalog.objects) : catalog.DetectsCycles root where
  raises := by
    refine ⟨_, walkUpTo_none (kind_ne_schema_of_mem known), ?_⟩
    rw [exists_cycle_iff known, meetsAgain_iff_leadsToCycle known]
  inherits := by
    rw [exists_cycle_iff known, leadsToCycle_iff_exists_next]
    refine exists_congr fun next => and_congr_right fun depends => ?_
    rw [exists_cycle_iff (dependencies_subset (mem_dependencies.2 depends))]
  diamond left right bottom shape :=
    (cycle?_walk_eq_none_iff known).2 shape.not_leadsToCycle
  same_name := by
    rintro table other rfl listed same kinds refers
    rw [cycle?_walk_eq_none_iff known]
    rcases kinds with enum | ⟨composite, complete⟩
    · exact not_leadsToCycle_of_same_name listed same (by rw [enum]; exact nofun)
        (not_leadsToCycle_of_enum enum) refers
    · exact not_leadsToCycle_of_same_name listed same (by rw [composite]; exact nofun)
        ((cycle?_walk_eq_none_iff listed).1 complete) refers

end Catalog

namespace Sample

theorem detects_cycles_tangle :
    .table offers ∈ tangle.objects ∧ tangle.DetectsCycles (.table offers) ∧
      (tangle.walk (.table offers)).cycle? = none ∧
    .table tree ∈ tangle.objects ∧ tangle.DetectsCycles (.table tree) ∧
      tangle.MeetsAgain (.table tree) := by
  have tree : tangle.DetectsCycles (.table tree) := Catalog.detects_cycles (by decide)
  refine ⟨by decide, Catalog.detects_cycles (by decide), by decide +kernel, by decide, tree, ?_⟩
  obtain ⟨walk, walked, raises⟩ := tree.raises
  cases walked
  exact raises.1 ⟨⟨["sales.node", "sales.branch", "sales.node"]⟩, by decide +kernel⟩

end Sample

end SchemaScript
