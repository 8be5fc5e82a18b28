import SchemaScript.Proofs.Cycles
import SchemaScript.Proofs.Inventory

/-!
The cycle that a walk reports. Below some frame a reference leads back to an object on the path, so
the path from that object on, closed by the object itself, goes round in a circle. Names alone tell
the circle, since only tables lead to tables and so the objects on it are all of one kind.
-/

namespace SchemaScript

namespace Catalog

variable {catalog : Catalog} {object other : SqlObject}

theorem Circular.of_reaches (circular : catalog.Circular object)
    (forth : catalog.Reaches object other) (back : catalog.Reaches other object) :
    catalog.Circular other :=
  Relation.TransGen.trans_right back (Relation.TransGen.trans_left circular forth)

theorem Circular.kind_eq (circular : catalog.Circular object) :
    object.kind = .composite ∨ object.kind = .table := by
  obtain ⟨next, ⟨column, listed, _⟩, _⟩ := Relation.TransGen.head'_iff.1 circular
  cases object with
  | schema name => cases listed
  | enum definition => cases listed
  | composite definition => exact .inl rfl
  | table definition => exact .inr rfl

/-- A circle does not lead from tables to composite types, from where there is no way back. -/
theorem Circular.same_kind (circular : catalog.Circular object)
    (forth : catalog.Reaches object other) (back : catalog.Reaches other object) :
    other.kind = object.kind := by
  rcases circular.kind_eq with composite | table
  · have notTable : other.kind ≠ .table := forth.kind_ne_table (by rw [composite]; exact nofun)
    rw [composite]
    exact (circular.of_reaches forth back).kind_eq.resolve_right notTable
  · by_cases same : other.kind = .table
    · rw [same, table]
    · exact absurd table (back.kind_ne_table same)

structure Round (catalog : Catalog) (first : SqlObject) (others : List SqlObject) : Prop where
  known : first ∈ catalog.objects
  linked : (first :: others ++ [first]).IsChain catalog.DependsOn
  once : ((first :: others).map (·.key)).Nodup

namespace Round

variable {first : SqlObject} {others : List SqlObject}

theorem reaches (round : catalog.Round first others) {object : SqlObject}
    (listed : object ∈ first :: others ++ [first]) : catalog.Reaches first object :=
  reaches_of_linked round.linked rfl listed

theorem leads_back (round : catalog.Round first others) {object : SqlObject}
    (listed : object ∈ first :: others ++ [first]) : catalog.Reaches object first :=
  reaches_last_of_linked round.linked List.getLast?_concat listed

theorem circular (round : catalog.Round first others) : catalog.Circular first := by
  obtain ⟨second, rest, split⟩ : ∃ second rest, others ++ [first] = second :: rest :=
    List.exists_cons_of_ne_nil (List.concat_ne_nil first others)
  have linked := round.linked
  rw [List.cons_append, split] at linked
  refine Relation.TransGen.head' (List.isChain_cons_cons.1 linked).1 (round.leads_back ?_)
  rw [List.cons_append, split]
  exact List.mem_cons_of_mem _ List.mem_cons_self

theorem same_kind (round : catalog.Round first others) {object : SqlObject}
    (listed : object ∈ first :: others ++ [first]) : object.kind = first.kind :=
  round.circular.same_kind (round.reaches listed) (round.leads_back listed)

theorem nodup_names (round : catalog.Round first others) :
    ((first :: others).map (·.name)).Nodup := by
  rw [List.Nodup, List.pairwise_map]
  refine (List.pairwise_map.1 round.once).imp_of_mem fun {a b} ha hb different same => ?_
  have kinds : a.kind = b.kind :=
    (round.same_kind (List.mem_append_left _ ha)).trans
      (round.same_kind (List.mem_append_left _ hb)).symm
  exact different (congrArg₂ ObjectKey.mk kinds same)

end Round

end Catalog

/-- What a report of a cycle says, and that nothing in it is to spare. -/
structure Cycle.Witnesses (catalog : Catalog) (root : SqlObject) (cycle : Cycle) : Prop where
  two_names : 2 ≤ cycle.names.length
  closed : cycle.names.head? = cycle.names.getLast?
  distinct : cycle.names.dropLast.Nodup
  /-- The names are those of definitions of one kind, each with a column that refers to the next,
  and the walk comes from the root to the first of them. -/
  members : ∃ (kind : ObjectKind) (objects : List SqlObject),
    (kind = .composite ∨ kind = .table) ∧ cycle.names = objects.map (·.name) ∧
      (∀ object ∈ objects, object ∈ catalog.objects ∧ object.kind = kind) ∧
      objects.IsChain (fun object next =>
        ∃ column ∈ object.columns, catalog.columnTarget object column = some next) ∧
      ∃ first, objects.head? = some first ∧ catalog.Reaches root first

namespace Walk

variable {catalog : Catalog} {root dependency : SqlObject} {frame : Frame} {cycle : Cycle}
  {objects : List SqlObject}

theorem Frame.Follows.exists_round (follows : frame.Follows catalog root objects)
    (known : root ∈ catalog.objects) (depends : catalog.DependsOn frame.object dependency)
    (closes : frame.step dependency = .error cycle) :
    ∃ others, catalog.Round dependency others ∧ catalog.Reaches root dependency ∧
      cycle.names = (dependency :: others ++ [dependency]).map (·.name) := by
  obtain ⟨held, rfl⟩ := Frame.step_eq_error_iff.1 closes
  have passed : ∀ object ∈ objects, object ∈ catalog.objects := fun object stands =>
    (follows.reaches_of_mem stands).mem_objects known
  have defined : dependency ∈ catalog.objects :=
    Catalog.dependencies_subset (Catalog.mem_dependencies.2 depends)
  -- Keys tell definitions apart, so what closes the path stands on it itself.
  have stands : dependency ∈ objects := by
    rw [follows.keys] at held
    obtain ⟨object, stands, keyed⟩ := List.mem_map.1 held
    rwa [← Catalog.eq_of_key_eq (.inl (passed object stands)) (.inl defined) keyed]
  obtain ⟨before, others, rfl, fresh⟩ := List.eq_append_cons_of_mem stands
  have linked := follows.linked_concat depends
  rw [List.append_assoc] at linked
  refine ⟨others, ⟨defined, linked.right_of_append, ?_⟩, follows.reaches_of_mem stands, ?_⟩
  · have once := follows.keys ▸ follows.simple
    rw [List.map_append] at once
    exact (List.nodup_append.1 once).2.1
  · -- What stands in front of it is what the report leaves out.
    have passed_over : ∀ key ∈ before.map (·.key), (key != dependency.key) = true := by
      intro key early
      obtain ⟨object, listed, rfl⟩ := List.mem_map.1 early
      rw [bne_iff_ne]
      intro keyed
      have same := Catalog.eq_of_key_eq (.inl (passed object (List.mem_append_left _ listed)))
        (.inl defined) keyed
      exact fresh (same ▸ listed)
    rw [Cycle.close, follows.keys, List.map_append, List.dropWhile_append_of_pos passed_over,
      List.map_cons, List.dropWhile_cons_of_neg (by simp)]
    simp [SqlObject.key]

theorem cycle?_run_of_runFor {count : Nat} {stack : List Frame}
    (met : (runFor catalog count stack).cycle? = some cycle) :
    (run catalog stack).cycle? = some cycle := by
  fun_induction runFor catalog count stack with
  | case1 => cases met
  | case2 => cases met
  | case3 => cases met
  | case4 count frame rest closed closes =>
    cases met
    rw [run_of_closed closes]
  | case5 count frame rest frames opened ih =>
    rw [run_of_opened opened]
    exact ih met

theorem cycle?_walk_of_walkUpTo {limit : Option Nat} {walk : Walk}
    (walked : catalog.walkUpTo limit root = .ok walk) (met : walk.cycle? = some cycle) :
    (catalog.walk root).cycle? = some cycle := by
  unfold Catalog.walkUpTo at walked
  split at walked
  · cases walked
    cases met
  · cases walked
  · cases walked
    exact cycle?_run_of_runFor met
  · cases walked
    exact met

/-- However far a walk is followed, a cycle that it reports is one, and no part of it is another. -/
theorem witnesses_of_walkUpTo (known : root ∈ catalog.objects) {limit : Option Nat} {walk : Walk}
    (walked : catalog.walkUpTo limit root = .ok walk) (met : walk.cycle? = some cycle) :
    cycle.Witnesses catalog root := by
  obtain ⟨frame, objects, first, follows, depends, closes⟩ :=
    exists_closing (cycle?_walk_of_walkUpTo walked met)
  obtain ⟨others, round, reached, names⟩ := follows.exists_round known depends closes
  constructor
  · rw [names]
    simp
  · rw [names, List.map_append, List.map_singleton, List.getLast?_concat]
    rfl
  · rw [names, List.map_append, List.map_singleton, List.dropLast_concat]
    exact round.nodup_names
  · refine ⟨first.kind, _, round.circular.kind_eq, names, fun object listed => ?_, round.linked,
      first, rfl, reached⟩
    exact ⟨(round.reaches listed).mem_objects round.known, round.same_kind listed⟩

end Walk

namespace Sample

theorem witnesses_tree :
    .table tree ∈ tangle.objects ∧
      tangle.walkUpTo none (.table tree) =
        .ok ⟨[.table tree, .composite node, .composite branch],
          some ⟨["sales.node", "sales.branch", "sales.node"]⟩⟩ ∧
      (Cycle.mk ["sales.node", "sales.branch", "sales.node"]).Witnesses tangle (.table tree) := by
  have walked : tangle.walkUpTo none (.table tree) =
      .ok ⟨[.table tree, .composite node, .composite branch],
        some ⟨["sales.node", "sales.branch", "sales.node"]⟩⟩ := by decide +kernel
  exact ⟨by decide, walked, Walk.witnesses_of_walkUpTo (by decide) walked rfl⟩

end Sample

end SchemaScript
