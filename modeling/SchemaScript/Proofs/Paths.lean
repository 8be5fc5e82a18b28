import Mathlib.Data.List.Chain
import SchemaScript.Proofs.Merge
import SchemaScript.Proofs.Turns

/-!
Paths of a walk. On the stack of a walk every frame has a path of references that leads from the
root to the object of the frame and holds no object twice. So no path is longer than the catalog
and the root together, and every walk ends, with or without a cycle.
-/

namespace SchemaScript

namespace Catalog

variable {catalog : Catalog}

theorem length_objects (catalog : Catalog) : catalog.objects.length = catalog.size := by
  simp only [objects, size, NamedList.size, List.length_append, List.length_map]

theorem mem_objects_of_linked {first : SqlObject} {others : List SqlObject}
    (linked : (first :: others).IsChain catalog.DependsOn) : others ⊆ catalog.objects := by
  induction others generalizing first with
  | nil => exact List.nil_subset _
  | cons second rest ih =>
    obtain ⟨depends, later⟩ := List.isChain_cons_cons.1 linked
    exact List.cons_subset.2 ⟨dependencies_subset (mem_dependencies.2 depends), ih later⟩

theorem reaches_of_linked {objects : List SqlObject} {first object : SqlObject}
    (linked : objects.IsChain catalog.DependsOn) (starts : objects.head? = some first)
    (listed : object ∈ objects) : catalog.Reaches first object := by
  refine linked.induction (catalog.Reaches first ·) objects
    (fun _ _ depends reached => reached.tail depends) (fun nonempty => ?_) object listed
  rw [(List.head_eq_iff_head?_eq_some nonempty).2 starts]
  exact .refl

theorem reaches_last_of_linked {objects : List SqlObject} {last object : SqlObject}
    (linked : objects.IsChain catalog.DependsOn) (ends : objects.getLast? = some last)
    (listed : object ∈ objects) : catalog.Reaches object last := by
  refine linked.backwards_induction (catalog.Reaches · last) objects
    (fun _ _ depends rest => .head depends rest) (fun nonempty => ?_) object listed
  rw [(List.getLast_eq_iff_getLast?_eq_some nonempty).2 ends]
  exact .refl

theorem walkUpTo_none {root : SqlObject} (walkable : root.kind ≠ .schema) :
    catalog.walkUpTo none root = .ok (catalog.walk root) := by
  cases root with
  | schema name => exact absurd rfl walkable
  | enum definition => rfl
  | composite definition => rfl
  | table definition => rfl

end Catalog

namespace Walk

variable {catalog : Catalog} {root : SqlObject} {frame next : Frame} {objects : List SqlObject}

structure Frame.Follows (catalog : Catalog) (root : SqlObject) (frame : Frame)
    (objects : List SqlObject) : Prop where
  keys : frame.path = objects.map (·.key)
  starts : objects.head? = some root
  ends : objects.getLast? = some frame.object
  linked : objects.IsChain catalog.DependsOn
  simple : frame.path.Nodup

theorem Frame.follows_root (catalog : Catalog) (root : SqlObject) :
    (Frame.root root).Follows catalog root [root] where
  keys := rfl
  starts := rfl
  ends := rfl
  linked := .singleton root
  simple := List.nodup_singleton root.key

theorem Frame.Follows.reaches_of_mem (follows : frame.Follows catalog root objects)
    {object : SqlObject} (passed : object ∈ objects) : catalog.Reaches root object :=
  Catalog.reaches_of_linked follows.linked follows.starts passed

theorem Frame.Follows.linked_concat (follows : frame.Follows catalog root objects)
    {dependency : SqlObject} (depends : catalog.DependsOn frame.object dependency) :
    (objects ++ [dependency]).IsChain catalog.DependsOn := by
  refine follows.linked.append (.singleton dependency) fun last stands other given => ?_
  obtain rfl : frame.object = last := Option.some.inj (follows.ends.symm.trans stands)
  obtain rfl : dependency = other := Option.some.inj given
  exact depends

theorem Frame.Follows.step (follows : frame.Follows catalog root objects)
    {dependency : SqlObject} (depends : catalog.DependsOn frame.object dependency)
    (stepped : frame.step dependency = .ok next) :
    next.Follows catalog root (objects ++ [dependency]) := by
  obtain ⟨fresh, rfl⟩ := Frame.step_eq_ok_iff.1 stepped
  constructor
  · rw [List.map_append, ← follows.keys, List.map_singleton]
  · rw [List.head?_append, follows.starts, Option.some_or]
  · exact List.getLast?_concat
  · exact follows.linked_concat depends
  · exact List.nodup_append.2 ⟨follows.simple, List.nodup_singleton _, by
      rintro key held _ new rfl
      exact fresh (List.mem_singleton.1 new ▸ held)⟩

/-- A path can hold every definition once, and the root besides. -/
theorem Frame.Follows.length_path_le (follows : frame.Follows catalog root objects) :
    frame.path.length ≤ 1 + catalog.size := by
  obtain ⟨others, rfl⟩ : ∃ others, objects = root :: others :=
    List.head?_eq_some_iff.1 follows.starts
  have distinct : (root :: others).Nodup := (follows.keys ▸ follows.simple).of_map
  have known : others ⊆ catalog.objects := Catalog.mem_objects_of_linked follows.linked
  have fits : others.length ≤ catalog.objects.length :=
    (List.nodup_cons.1 distinct).2.length_le_of_subset known
  rw [Catalog.length_objects] at fits
  rw [follows.keys, List.length_map, List.length_cons]
  omega

structure Frame.OnSimplePath (catalog : Catalog) (root : SqlObject) (frame : Frame) : Prop where
  follows : ∃ objects, frame.Follows catalog root objects
  own_last : frame.path.getLast? = some frame.object.key
  nodup : frame.path.Nodup
  length_le : frame.path.length ≤ 1 + catalog.size

theorem Frame.Follows.onSimplePath (follows : frame.Follows catalog root objects) :
    frame.OnSimplePath catalog root where
  follows := ⟨objects, follows⟩
  own_last := by rw [follows.keys, List.getLast?_map, follows.ends, Option.map_some]
  nodup := follows.simple
  length_le := follows.length_path_le

theorem Turns.exists_follows {visited : List SqlObject} {stack : List Frame}
    (turns : Turns catalog [.root root] visited stack) :
    ∀ frame ∈ stack, ∃ objects, frame.Follows catalog root objects := by
  refine turns.forall_mem ?_ ?_
  · rintro frame dependency next ⟨objects, follows⟩ depends stepped
    exact ⟨objects ++ [dependency], follows.step depends stepped⟩
  · intro frame only
    obtain rfl := List.mem_singleton.1 only
    exact ⟨[root], Frame.follows_root catalog root⟩

/-- A walk that meets a cycle has a frame below which a path from the root closes. -/
theorem exists_closing {cycle : Cycle} (met : (catalog.walk root).cycle? = some cycle) :
    ∃ (frame : Frame) (objects : List SqlObject) (dependency : SqlObject),
      frame.Follows catalog root objects ∧ catalog.DependsOn frame.object dependency ∧
      frame.step dependency = .error cycle := by
  obtain ⟨visited, frame, rest, turns, closes⟩ := exists_turns_of_cycle met
  obtain ⟨objects, follows⟩ := turns.exists_follows frame List.mem_cons_self
  obtain ⟨dependency, depends, stepped⟩ := exists_step_of_children_error closes
  exact ⟨frame, objects, dependency, follows, depends, stepped⟩

/-- How a walk goes on and ends, whatever goes round in circles. -/
structure Terminates (catalog : Catalog) (root : SqlObject) : Prop where
  paths : ∀ visited stack, Turns catalog [.root root] visited stack →
    ∀ frame ∈ stack, frame.OnSimplePath catalog root
  bounded : ∀ visited stack, Turns catalog [.root root] visited stack →
    visited.length ≤ totalWeight catalog [.root root]
  /-- The loop ends, and in one way only. -/
  ends : ∀ walk, EndsIn catalog [.root root] walk ↔ walk = catalog.walk root
  answers : catalog.walkUpTo none root = .ok (catalog.walk root)

theorem terminates_of_walkable (catalog : Catalog) (walkable : root.kind ≠ .schema) :
    Terminates catalog root where
  paths visited stack turns frame stacked := by
    obtain ⟨objects, follows⟩ := turns.exists_follows frame stacked
    exact follows.onSimplePath
  bounded visited stack turns :=
    Nat.le_of_add_right_le turns.length_add_totalWeight_le
  ends walk := endsIn_iff
  answers := Catalog.walkUpTo_none walkable

end Walk

namespace Sample

def refers (column : Identifier) (name : String) : Column :=
  ⟨.reference name, column, true, "", false⟩

def offer : CompositeType where
  schema := sales
  name := ⟨"offer", by decide⟩
  comment := ""
  columns := [refers ⟨"net", by decide⟩ "sales.money", refers ⟨"gross", by decide⟩ "sales.money",
    refers ⟨"label", by decide⟩ "sales.color"]
  no_identity := by decide

def node : CompositeType where
  schema := sales
  name := ⟨"node", by decide⟩
  comment := ""
  columns := [refers ⟨"child", by decide⟩ "sales.branch"]
  no_identity := by decide

def branch : CompositeType where
  schema := sales
  name := ⟨"branch", by decide⟩
  comment := ""
  columns := [refers ⟨"leaf", by decide⟩ "sales.color", refers ⟨"back", by decide⟩ "sales.node"]
  no_identity := by decide

def offers : Table where
  schema := sales
  name := ⟨"offer", by decide⟩
  comment := ""
  options := ⟨false⟩
  columns := [refers ⟨"offer", by decide⟩ "sales.offer", refers ⟨"tax", by decide⟩ "sales.money"]
  columns_ne_nil := by decide
  one_identity := by decide

def tree : Table where
  schema := sales
  name := ⟨"tree", by decide⟩
  comment := ""
  options := ⟨false⟩
  columns := [refers ⟨"offer", by decide⟩ "sales.offer", refers ⟨"top", by decide⟩ "sales.node"]
  columns_ne_nil := by decide
  one_identity := by decide

def tangle : Catalog where
  enums := catalog.enums
  composites := ⟨[money, offer, node, branch], by decide⟩
  tables := ⟨[offers, tree], by decide⟩
  schemas := [sales]

theorem terminates_tree :
    (SqlObject.table tree).kind ≠ .schema ∧ Walk.Terminates tangle (.table tree) ∧
      tangle.walk (.table tree) =
        ⟨[.table tree, .composite node, .composite branch],
          some ⟨["sales.node", "sales.branch", "sales.node"]⟩⟩ :=
  ⟨nofun, Walk.terminates_of_walkable tangle nofun, by decide +kernel⟩

end Sample

end SchemaScript
