import SchemaScript.Catalog
import SchemaScript.Number.Numeral

/-!
Dependencies between objects. A column depends on what its type refers to. A walk starts at an
object and follows dependencies depth first, the last column first, once for every path; it stops
where a path comes back to an object that it already holds.
-/

namespace SchemaScript

namespace Catalog

/-- Columns of tables may refer to tables, those of composite types may not. -/
def columnTarget (catalog : Catalog) (object : SqlObject) (column : Column) : Option SqlObject :=
  catalog.resolve column.type (object.kind == .table)

def dependencies (catalog : Catalog) (object : SqlObject) : List SqlObject :=
  object.columns.filterMap (catalog.columnTarget object)

theorem dependencies_subset {catalog : Catalog} {object dependency : SqlObject}
    (h : dependency ∈ catalog.dependencies object) : dependency ∈ catalog.objects := by
  obtain ⟨column, _, target⟩ := List.mem_filterMap.1 h
  exact resolve_mem target

def unresolved (catalog : Catalog) (object : SqlObject) : List (Column × String) :=
  object.columns.filterMap fun column =>
    match column.type, catalog.columnTarget object column with
    | .reference name, none => some (column, name)
    | _, _ => none

end Catalog

structure Cycle where
  names : List String
deriving DecidableEq, Repr

def Cycle.message (cycle : Cycle) : String :=
  "Dependency cycle detected: " ++ " -> ".intercalate cycle.names

def Cycle.close (path : List ObjectKey) (key : ObjectKey) : Cycle :=
  ⟨(path.dropWhile (· != key)).map (·.name) ++ [key.name]⟩

namespace Walk

/-- An object to visit and the path that leads to it, which ends in it. -/
structure Frame where
  object : SqlObject
  path : List ObjectKey
deriving DecidableEq, Repr

def Frame.root (object : SqlObject) : Frame := ⟨object, [object.key]⟩

def Frame.step (frame : Frame) (dependency : SqlObject) : Except Cycle Frame :=
  if dependency.key ∈ frame.path then .error (.close frame.path dependency.key)
  else .ok ⟨dependency, frame.path ++ [dependency.key]⟩

theorem Frame.step_eq_ok_iff {frame next : Frame} {dependency : SqlObject} :
    frame.step dependency = .ok next ↔
      dependency.key ∉ frame.path ∧ next = ⟨dependency, frame.path ++ [dependency.key]⟩ := by
  by_cases held : dependency.key ∈ frame.path
  · simp [step, held]
  · simp [step, held, eq_comm]

theorem Frame.step_eq_error_iff {frame : Frame} {dependency : SqlObject} {cycle : Cycle} :
    frame.step dependency = .error cycle ↔
      dependency.key ∈ frame.path ∧ cycle = .close frame.path dependency.key := by
  by_cases held : dependency.key ∈ frame.path
  · simp [step, held, eq_comm]
  · simp [step, held]

def steps (frame : Frame) : List SqlObject → Except Cycle (List Frame)
  | [] => .ok []
  | dependency :: rest =>
    match frame.step dependency with
    | .error cycle => .error cycle
    | .ok next =>
      match steps frame rest with
      | .error cycle => .error cycle
      | .ok frames => .ok (next :: frames)

theorem steps_cons_eq_ok_iff {frame : Frame} {dependency : SqlObject} {rest : List SqlObject}
    {frames : List Frame} :
    steps frame (dependency :: rest) = .ok frames ↔
      ∃ next others, frame.step dependency = .ok next ∧ steps frame rest = .ok others ∧
        frames = next :: others := by
  cases first : frame.step dependency with
  | error cycle => simp [steps, first]
  | ok next =>
    cases later : steps frame rest with
    | error cycle => simp [steps, first, later]
    | ok others => simp [steps, first, later, eq_comm]

def children (catalog : Catalog) (frame : Frame) : Except Cycle (List Frame) :=
  steps frame (catalog.dependencies frame.object)

-- A walk ends since a frame weighs more than all its children together: every child's path holds
-- one more object of the catalog, and no object has more dependencies than all objects have.

def unvisited (catalog : Catalog) (path : List ObjectKey) : Nat :=
  ((catalog.objects.map (·.key)).filter fun key => !path.contains key).length

def branching (catalog : Catalog) : Nat :=
  Number.total (catalog.objects.map fun object => (catalog.dependencies object).length) + 1

/-- What each frame below a path may weigh. -/
def allowance (catalog : Catalog) (path : List ObjectKey) : Nat :=
  Nat.pow (branching catalog) (unvisited catalog path)

def weight (catalog : Catalog) (frame : Frame) : Nat :=
  1 + (catalog.dependencies frame.object).length * allowance catalog frame.path

def totalWeight (catalog : Catalog) (frames : List Frame) : Nat :=
  Number.total (frames.map (weight catalog))

theorem unvisited_lt {catalog : Catalog} {path : List ObjectKey} {object : SqlObject}
    (known : object ∈ catalog.objects) (fresh : object.key ∉ path) :
    unvisited catalog (path ++ [object.key]) < unvisited catalog path := by
  unfold unvisited
  have member :
      object.key ∈ (catalog.objects.map (·.key)).filter fun key => !path.contains key := by
    simp only [List.mem_filter, List.mem_map]
    exact ⟨⟨object, known, rfl⟩, by simpa using fresh⟩
  have smaller : ((catalog.objects.map (·.key)).filter fun key =>
      !(path ++ [object.key]).contains key) =
      ((catalog.objects.map (·.key)).filter fun key => !path.contains key).filter
        fun key => key != object.key := by
    rw [List.filter_filter]
    congr 1
    funext key
    simp [List.contains_eq_mem, Bool.and_comm, bne, BEq.beq]
  rw [smaller]
  exact List.length_filter_lt_length_iff_exists.2 ⟨_, member, by simp⟩

theorem branching_pos (catalog : Catalog) : 1 ≤ branching catalog := Nat.le_add_left _ _

theorem allowance_pos (catalog : Catalog) (path : List ObjectKey) : 1 ≤ allowance catalog path :=
  Nat.one_le_pow _ _ (branching_pos catalog)

theorem branching_mul_allowance_le {catalog : Catalog} {path : List ObjectKey}
    {object : SqlObject} (known : object ∈ catalog.objects) (fresh : object.key ∉ path) :
    branching catalog * allowance catalog (path ++ [object.key]) ≤ allowance catalog path := by
  have fewer := unvisited_lt known fresh
  have step : allowance catalog (path ++ [object.key]) * branching catalog =
      Nat.pow (branching catalog) (unvisited catalog (path ++ [object.key]) + 1) := rfl
  rw [Nat.mul_comm, step]
  exact Nat.pow_le_pow_right (branching_pos catalog) fewer

theorem dependencies_length_lt {catalog : Catalog} {object : SqlObject}
    (known : object ∈ catalog.objects) :
    (catalog.dependencies object).length + 1 ≤ branching catalog :=
  Nat.succ_le_succ (Number.le_total_of_mem (List.mem_map_of_mem
    (f := fun object => (catalog.dependencies object).length) known))

theorem weight_step_le {catalog : Catalog} {frame next : Frame} {dependency : SqlObject}
    (known : dependency ∈ catalog.objects) (h : frame.step dependency = .ok next) :
    weight catalog next ≤ allowance catalog frame.path := by
  obtain ⟨fresh, rfl⟩ := Frame.step_eq_ok_iff.1 h
  have positive := allowance_pos catalog (frame.path ++ [dependency.key])
  unfold weight
  calc 1 + (catalog.dependencies dependency).length *
        allowance catalog (frame.path ++ [dependency.key])
      ≤ ((catalog.dependencies dependency).length + 1) *
        allowance catalog (frame.path ++ [dependency.key]) := by
          rw [Nat.add_mul, Nat.one_mul]
          omega
    _ ≤ branching catalog * allowance catalog (frame.path ++ [dependency.key]) :=
          Nat.mul_le_mul_right _ (dependencies_length_lt known)
    _ ≤ allowance catalog frame.path := branching_mul_allowance_le known fresh

theorem totalWeight_steps_le {catalog : Catalog} {frame : Frame} {dependencies : List SqlObject}
    {frames : List Frame} (known : ∀ dependency ∈ dependencies, dependency ∈ catalog.objects)
    (h : steps frame dependencies = .ok frames) :
    totalWeight catalog frames ≤
      dependencies.length * allowance catalog frame.path := by
  induction dependencies generalizing frames with
  | nil =>
    cases h
    simp [totalWeight]
  | cons dependency rest ih =>
    obtain ⟨next, others, first, later, rfl⟩ := steps_cons_eq_ok_iff.1 h
    have head := weight_step_le (known _ (List.mem_cons_self ..)) first
    have tail := ih (fun d hd => known d (List.mem_cons_of_mem _ hd)) later
    simp only [totalWeight, List.map_cons, Number.total_cons, List.length_cons, Nat.add_mul,
      Nat.one_mul] at tail ⊢
    omega

theorem totalWeight_children_lt {catalog : Catalog} {frame : Frame} {frames rest : List Frame}
    (h : children catalog frame = .ok frames) :
    totalWeight catalog (frames.reverse ++ rest) < totalWeight catalog (frame :: rest) := by
  have lighter := totalWeight_steps_le (fun _ hd => Catalog.dependencies_subset hd) h
  simp only [totalWeight, List.map_append, List.map_reverse, Number.total_append,
    Number.total_reverse, List.map_cons, Number.total_cons, weight] at lighter ⊢
  omega

end Walk

/-- What a walk visits, and the cycle that ends it early if there is one. -/
structure Walk where
  visited : List SqlObject
  cycle? : Option Cycle
deriving DecidableEq, Repr

namespace Walk

def finished : Walk := ⟨[], none⟩

def visit (object : SqlObject) (walk : Walk) : Walk := ⟨object :: walk.visited, walk.cycle?⟩

def run (catalog : Catalog) : List Frame → Walk
  | [] => finished
  | frame :: rest =>
    match _below : children catalog frame with
    | .error cycle => ⟨[frame.object], some cycle⟩
    | .ok frames => (run catalog (frames.reverse ++ rest)).visit frame.object
termination_by stack => totalWeight catalog stack
decreasing_by exact totalWeight_children_lt ‹_›

/-- The beginning of a walk. What is below the last visited object is not looked at. -/
def runFor (catalog : Catalog) : (count : Nat) → List Frame → Walk
  | 0, _ => finished
  | _, [] => finished
  | 1, frame :: _ => ⟨[frame.object], none⟩
  | count + 2, frame :: rest =>
    match children catalog frame with
    | .error cycle => ⟨[frame.object], some cycle⟩
    | .ok frames => (runFor catalog (count + 1) (frames.reverse ++ rest)).visit frame.object

end Walk

namespace Catalog

def walk (catalog : Catalog) (root : SqlObject) : Walk := Walk.run catalog [.root root]

def walkFor (catalog : Catalog) (count : Nat) (root : SqlObject) : Walk :=
  Walk.runFor catalog count [.root root]

def walkUpTo (catalog : Catalog) (limit : Option Nat) (root : SqlObject) :
    Except ObjectError Walk :=
  match limit, root with
  | some 0, _ => .ok .finished
  | _, .schema _ => .error .notWalkable
  | some count, root => .ok (catalog.walkFor count root)
  | none, root => .ok (catalog.walk root)

def walkAll (catalog : Catalog) : List SqlObject → List Walk
  | [] => []
  | root :: roots =>
    let walk := catalog.walk root
    if walk.cycle?.isSome then [walk] else walk :: catalog.walkAll roots

end Catalog

end SchemaScript
