import Mathlib.Logic.Relation
import SchemaScript.Emission
import SchemaScript.Proofs.Distinct
import SchemaScript.Proofs.Lookup

/-!
What a walk visits. A walk without a cycle visits exactly what its root reaches, and behind every
visit of an object it visits what the object depends on. Read backwards and without repeats, such
walks list every object behind its dependencies.
-/

namespace SchemaScript

namespace Catalog

def DependsOn (catalog : Catalog) (object other : SqlObject) : Prop :=
  ∃ column ∈ object.columns, catalog.columnTarget object column = some other

def Reaches (catalog : Catalog) : SqlObject → SqlObject → Prop :=
  Relation.ReflTransGen catalog.DependsOn

variable {catalog : Catalog}

theorem mem_dependencies {object other : SqlObject} :
    other ∈ catalog.dependencies object ↔ catalog.DependsOn object other := List.mem_filterMap

theorem Reaches.mem_objects {object other : SqlObject} (known : object ∈ catalog.objects)
    (reaches : catalog.Reaches object other) : other ∈ catalog.objects := by
  induction reaches with
  | refl => exact known
  | tail _ depends _ => exact dependencies_subset (mem_dependencies.2 depends)

end Catalog

namespace Walk

variable {catalog : Catalog}

theorem steps_objects {frame : Frame} {dependencies : List SqlObject} {frames : List Frame}
    (h : steps frame dependencies = .ok frames) : frames.map (·.object) = dependencies := by
  induction dependencies generalizing frames with
  | nil =>
    cases h
    rfl
  | cons dependency rest ih =>
    obtain ⟨next, others, first, later, rfl⟩ := steps_cons_eq_ok_iff.1 h
    obtain ⟨_, rfl⟩ := Frame.step_eq_ok_iff.1 first
    rw [List.map_cons, ih later]

theorem children_objects {frame : Frame} {frames : List Frame}
    (h : children catalog frame = .ok frames) :
    frames.map (·.object) = catalog.dependencies frame.object := steps_objects h

theorem exists_reaches_of_mem_run {stack : List Frame} {object : SqlObject}
    (h : object ∈ (run catalog stack).visited) :
    ∃ frame ∈ stack, catalog.Reaches frame.object object := by
  fun_induction run catalog stack with
  | case1 => cases h
  | case2 frame rest cycle below =>
    obtain rfl := List.mem_singleton.1 h
    exact ⟨frame, List.mem_cons_self, .refl⟩
  | case3 frame rest frames below ih =>
    rcases List.mem_cons.1 h with rfl | later
    · exact ⟨frame, List.mem_cons_self, .refl⟩
    · obtain ⟨next, stacked, reaches⟩ := ih later
      rcases List.mem_append.1 stacked with child | pending
      · have depends : next.object ∈ catalog.dependencies frame.object := by
          rw [← children_objects below]
          exact List.mem_map_of_mem (List.mem_reverse.1 child)
        exact ⟨frame, List.mem_cons_self, .head (Catalog.mem_dependencies.1 depends) reaches⟩
      · exact ⟨next, List.mem_cons_of_mem _ pending, reaches⟩

theorem mem_run_of_mem_stack {stack : List Frame} (complete : (run catalog stack).cycle? = none)
    {frame : Frame} (h : frame ∈ stack) : frame.object ∈ (run catalog stack).visited := by
  fun_induction run catalog stack with
  | case1 => cases h
  | case2 top rest cycle below => cases complete
  | case3 top rest frames below ih =>
    rcases List.mem_cons.1 h with rfl | pending
    · exact List.mem_cons_self
    · exact List.mem_cons_of_mem _ (ih complete (List.mem_append_right _ pending))

/-- A walk that meets no cycle visits the dependencies of an object after every visit of it. -/
theorem followed_run {stack : List Frame} (complete : (run catalog stack).cycle? = none) :
    Followed catalog.dependencies (run catalog stack).visited := by
  fun_induction run catalog stack with
  | case1 => exact Followed.nil
  | case2 top rest cycle below => cases complete
  | case3 top rest frames below ih =>
    refine Followed.cons ?_ (ih complete)
    intro dependency h
    rw [← children_objects below] at h
    obtain ⟨frame, child, rfl⟩ := List.mem_map.1 h
    exact mem_run_of_mem_stack complete (List.mem_append_left _ (List.mem_reverse.2 child))

end Walk

namespace Catalog

variable {catalog : Catalog}

theorem reaches_of_mem_walk {root object : SqlObject} (h : object ∈ (catalog.walk root).visited) :
    catalog.Reaches root object := by
  obtain ⟨frame, stacked, reaches⟩ := Walk.exists_reaches_of_mem_run h
  obtain rfl := List.mem_singleton.1 stacked
  exact reaches

/-- A walk that meets no cycle visits exactly what its root reaches. -/
theorem mem_walk_iff {root object : SqlObject} (complete : (catalog.walk root).cycle? = none) :
    object ∈ (catalog.walk root).visited ↔ catalog.Reaches root object := by
  refine ⟨reaches_of_mem_walk, fun reaches => ?_⟩
  induction reaches with
  | refl => exact Walk.mem_run_of_mem_stack complete (List.mem_singleton.2 rfl)
  | tail _ depends ih =>
    exact (Walk.followed_run complete).subset ih (mem_dependencies.2 depends)

theorem findSome?_cycle_walkAll (roots : List SqlObject) :
    (catalog.walkAll roots).findSome? (·.cycle?) =
      roots.findSome? fun root => (catalog.walk root).cycle? := by
  induction roots with
  | nil => rfl
  | cons root roots ih =>
    cases met : (catalog.walk root).cycle? with
    | none => simp [walkAll, met, ih]
    | some cycle => simp [walkAll, met]

theorem walkAll_eq_map {roots : List SqlObject}
    (complete : ∀ root ∈ roots, (catalog.walk root).cycle? = none) :
    catalog.walkAll roots = roots.map catalog.walk := by
  induction roots with
  | nil => rfl
  | cons root roots ih =>
    have rest := ih fun other later => complete other (List.mem_cons_of_mem _ later)
    simp [walkAll, complete root List.mem_cons_self, rest]

theorem expand_eq_ok_iff {roots objects : List SqlObject} :
    catalog.expand roots = .ok objects ↔
      (∀ root ∈ roots, (catalog.walk root).cycle? = none) ∧
        inCreationOrder (roots.flatMap fun root => (catalog.walk root).visited) = objects := by
  rw [← List.findSome?_eq_none_iff]
  simp only [expand, findSome?_cycle_walkAll]
  cases met : roots.findSome? fun root => (catalog.walk root).cycle? with
  | some cycle => simp
  | none =>
    rw [walkAll_eq_map (List.findSome?_eq_none_iff.1 met), List.flatMap_map]
    simp

section Expand

variable {roots objects : List SqlObject} (known : roots ⊆ catalog.objects)
  (expanded : catalog.expand roots = .ok objects)

include known

theorem mem_objects_of_mem_walks {object : SqlObject}
    (h : object ∈ roots.flatMap fun root => (catalog.walk root).visited) :
    object ∈ catalog.objects := by
  obtain ⟨root, listed, visited⟩ := List.mem_flatMap.1 h
  exact (reaches_of_mem_walk visited).mem_objects (known listed)

include expanded

theorem mem_expand_iff {object : SqlObject} :
    object ∈ objects ↔ ∃ root ∈ roots, catalog.Reaches root object := by
  obtain ⟨complete, rfl⟩ := expand_eq_ok_iff.1 expanded
  rw [inCreationOrder, mem_distinctBy, List.mem_reverse, List.mem_flatMap]
  · constructor
    · rintro ⟨root, listed, visited⟩
      exact ⟨root, listed, reaches_of_mem_walk visited⟩
    · rintro ⟨root, listed, reaches⟩
      exact ⟨root, listed, (mem_walk_iff (complete root listed)).2 reaches⟩
  · exact distinguished fun a ha => .inl (mem_objects_of_mem_walks known (List.mem_reverse.1 ha))

theorem preceded_expand : Preceded catalog.dependencies objects := by
  obtain ⟨complete, rfl⟩ := expand_eq_ok_iff.1 expanded
  apply Preceded.distinctBy
  · exact distinguished fun a ha => .inl (mem_objects_of_mem_walks known (List.mem_reverse.1 ha))
  · apply Followed.reverse
    exact Followed.flatMap fun root listed => Walk.followed_run (complete root listed)

end Expand

end Catalog

end SchemaScript
