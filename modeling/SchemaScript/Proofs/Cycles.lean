import SchemaScript.Proofs.Paths
import SchemaScript.Proofs.Sections

/-!
Cycles. A walk meets a cycle exactly if references lead from its root to an object that refers back
to itself. So a script is made exactly if none of what its filter accepts leads to such an object.
-/

namespace SchemaScript

section Followed

variable {α : Type} {needs : α → List α} {items : List α}

theorem Followed.mem_of_transGen (followed : Followed needs items) {a b : α}
    (leads : Relation.TransGen (fun a b => b ∈ needs a) a b) {behind : List α}
    (h : a :: behind <:+ items) : b ∈ behind := by
  induction leads with
  | single needed => exact followed a behind h needed
  | tail _ needed ih =>
    obtain ⟨between, later, rfl⟩ := List.append_of_mem ih
    have stands : _ :: later <:+ items := (List.suffix_append (a :: between) _).trans h
    exact List.mem_append_right _ (List.mem_cons_of_mem _ (followed _ later stands needed))

/-- What needs itself would have to stand behind its last occurrence. -/
theorem Followed.not_suffix_of_transGen (followed : Followed needs items) {a : α}
    (leads : Relation.TransGen (fun a b => b ∈ needs a) a a) (behind : List α) :
    ¬ a :: behind <:+ items := by
  intro h
  obtain ⟨between, later, split⟩ := List.append_of_mem (followed.mem_of_transGen leads h)
  have stands : a :: later <:+ a :: behind := split ▸ List.suffix_append (a :: between) _
  exact followed.not_suffix_of_transGen leads later (stands.trans h)
termination_by behind.length
decreasing_by
  rw [split, List.length_append, List.length_cons]
  omega

theorem Followed.not_mem_of_transGen (followed : Followed needs items) {a : α}
    (leads : Relation.TransGen (fun a b => b ∈ needs a) a a) : a ∉ items := by
  intro listed
  obtain ⟨before, behind, rfl⟩ := List.append_of_mem listed
  exact followed.not_suffix_of_transGen leads behind (List.suffix_append before _)

end Followed

namespace Catalog

def Circular (catalog : Catalog) (object : SqlObject) : Prop :=
  Relation.TransGen catalog.DependsOn object object

def LeadsToCycle (catalog : Catalog) (root : SqlObject) : Prop :=
  ∃ object, catalog.Reaches root object ∧ catalog.Circular object

end Catalog

namespace Walk

variable {catalog : Catalog} {root : SqlObject}

/-- The path of a frame runs along references, from the root to the object of the frame. -/
structure Frame.Sound (catalog : Catalog) (root : SqlObject) (frame : Frame) : Prop where
  reached : catalog.Reaches root frame.object
  passed : ∀ key ∈ frame.path, ∃ object,
    object.key = key ∧ catalog.Reaches root object ∧ catalog.Reaches object frame.object

variable {frame : Frame} {dependency : SqlObject} {cycle : Cycle}

theorem Frame.Follows.sound {objects : List SqlObject}
    (follows : frame.Follows catalog root objects) : frame.Sound catalog root where
  reached := follows.reaches_of_mem (List.mem_of_getLast? follows.ends)
  passed key held := by
    rw [follows.keys] at held
    obtain ⟨object, stands, keyed⟩ := List.mem_map.1 held
    exact ⟨object, keyed, follows.reaches_of_mem stands,
      Catalog.reaches_last_of_linked follows.linked follows.ends stands⟩

theorem Frame.Sound.leadsToCycle (sound : frame.Sound catalog root)
    (known : root ∈ catalog.objects) (depends : catalog.DependsOn frame.object dependency)
    (h : frame.step dependency = .error cycle) : catalog.LeadsToCycle root := by
  obtain ⟨closing, _⟩ := Frame.step_eq_error_iff.1 h
  obtain ⟨object, keyed, start, rest⟩ := sound.passed _ closing
  have reached : catalog.Reaches root dependency := sound.reached.tail depends
  obtain rfl : object = dependency := Catalog.eq_of_key_eq (.inl (start.mem_objects known))
    (.inl (reached.mem_objects known)) keyed
  exact ⟨object, start, Relation.TransGen.tail' rest depends⟩

theorem leadsToCycle_of_met (known : root ∈ catalog.objects)
    (met : (catalog.walk root).cycle? = some cycle) : catalog.LeadsToCycle root := by
  obtain ⟨frame, objects, dependency, follows, depends, closes⟩ := exists_closing met
  exact follows.sound.leadsToCycle known depends closes

end Walk

namespace Catalog

variable {catalog : Catalog} {root : SqlObject}

/-- A walk goes through to its end exactly if its root leads to no cycle. -/
theorem cycle?_walk_eq_none_iff (known : root ∈ catalog.objects) :
    (catalog.walk root).cycle? = none ↔ ¬ catalog.LeadsToCycle root := by
  constructor
  · rintro complete ⟨object, reached, circular⟩
    have listed : catalog.DependsOn ≤ fun a b => b ∈ catalog.dependencies a :=
      fun _ _ depends => mem_dependencies.2 depends
    exact (Walk.followed_run complete).not_mem_of_transGen
      (Relation.TransGen.mono listed _ _ circular) ((mem_walk_iff complete).2 reached)
  · intro free
    cases met : (catalog.walk root).cycle? with
    | none => rfl
    | some cycle => exact absurd (Walk.leadsToCycle_of_met known met) free

theorem exists_expand_iff {roots : List SqlObject} (known : roots ⊆ catalog.objects) :
    (∃ objects, catalog.expand roots = .ok objects) ↔
      ∀ root ∈ roots, ¬ catalog.LeadsToCycle root := by
  simp only [expand_eq_ok_iff, exists_and_left, exists_eq', and_true]
  exact forall₂_congr fun root listed => cycle?_walk_eq_none_iff (known listed)

/-- No composite type or table that a filter accepts leads to a cycle. -/
structure AcyclicUnder (catalog : Catalog) (filter : NameFilter) : Prop where
  composites : ∀ definition ∈ catalog.composites.items,
    filter definition.qualifiedName.text = true → ¬ catalog.LeadsToCycle (.composite definition)
  tables : ∀ definition ∈ catalog.tables.items,
    filter definition.qualifiedName.text = true → ¬ catalog.LeadsToCycle (.table definition)

end Catalog

namespace Emission

theorem exists_ofCatalog_iff {catalog : Catalog} {filter : NameFilter} :
    (∃ emission, ofCatalog catalog filter = .ok emission) ↔ catalog.AcyclicUnder filter := by
  have composites : (∃ objects, catalog.expand (catalog.compositeRoots filter) = .ok objects) ↔
      ∀ root ∈ catalog.compositeRoots filter, ¬ catalog.LeadsToCycle root :=
    Catalog.exists_expand_iff Catalog.compositeRoots_subset
  have tables : (∃ objects, catalog.expand (catalog.tableRoots filter) = .ok objects) ↔
      ∀ root ∈ catalog.tableRoots filter, ¬ catalog.LeadsToCycle root :=
    Catalog.exists_expand_iff Catalog.tableRoots_subset
  simp only [Catalog.compositeRoots, Catalog.tableRoots, Catalog.mem_selection_iff]
    at composites tables
  constructor
  · rintro ⟨emission, built⟩
    obtain ⟨first, second, hc, ht, _⟩ := ofCatalog_eq_ok_iff.1 built
    exact ⟨fun d listed accepted => composites.1 ⟨first, hc⟩ _ ⟨d, listed, accepted, rfl⟩,
      fun d listed accepted => tables.1 ⟨second, ht⟩ _ ⟨d, listed, accepted, rfl⟩⟩
  · intro acyclic
    obtain ⟨first, hc⟩ := composites.2 (by
      rintro _ ⟨d, listed, accepted, rfl⟩
      exact acyclic.composites d listed accepted)
    obtain ⟨second, ht⟩ := tables.2 (by
      rintro _ ⟨d, listed, accepted, rfl⟩
      exact acyclic.tables d listed accepted)
    exact ⟨_, ofCatalog_eq_ok_iff.2 ⟨first, second, hc, ht, rfl⟩⟩

end Emission

end SchemaScript
