import SchemaScript.Proofs.Paths

/-!
The walk by recursion. An object is visited, and then what its columns refer to is walked, the last
column first, each with the path that leads to it. What stands on the stack of a walk are the calls
that the recursion still has to make, so both visit the same objects in the same order and end
alike, also where a walk is cut short.
-/

namespace SchemaScript

namespace Walk

variable {catalog : Catalog} {stack : List Frame} {object : SqlObject} {path : List ObjectKey}

def andThen (first second : Walk) : Walk :=
  match first.cycle? with
  | some cycle => ⟨first.visited, some cycle⟩
  | none => ⟨first.visited ++ second.visited, second.cycle?⟩

def inTurn : List Walk → Walk
  | [] => finished
  | walk :: rest => walk.andThen (inTurn rest)

theorem andThen_finished (walk : Walk) : walk.andThen finished = walk := by
  obtain ⟨visited, _ | cycle⟩ := walk
  · simp [andThen, finished]
  · rfl

theorem andThen_assoc (first second third : Walk) :
    (first.andThen second).andThen third = first.andThen (second.andThen third) := by
  obtain ⟨visited, _ | cycle⟩ := first
  · obtain ⟨later, _ | cycle⟩ := second
    · simp [andThen]
    · rfl
  · rfl

theorem visit_andThen (object : SqlObject) (first second : Walk) :
    (first.visit object).andThen second = (first.andThen second).visit object := by
  obtain ⟨visited, _ | cycle⟩ := first <;> rfl

theorem inTurn_append (first second : List Walk) :
    inTurn (first ++ second) = (inTurn first).andThen (inTurn second) := by
  induction first with
  | nil => rfl
  | cons walk rest ih => rw [List.cons_append, inTurn, inTurn, ih, andThen_assoc]

def circle (path : List ObjectKey) (key : ObjectKey) : Cycle :=
  ⟨(path.drop (path.idxOf key)).map (·.name) ++ [key.name]⟩

/-- Visits an object to which a path leads. If a column refers to something on the path, the first
such column closes a cycle; otherwise what the columns refer to is walked, the last one first. -/
def depthFirst (catalog : Catalog) (object : SqlObject) (path : List ObjectKey) : Walk :=
  match _closed : (catalog.dependencies object).find? (·.key ∈ path) with
  | some dependency => ⟨[object], some (circle path dependency.key)⟩
  | none =>
    (inTurn ((catalog.dependencies object).reverse.attach.map fun ⟨dependency, _⟩ =>
      depthFirst catalog dependency (path ++ [dependency.key]))).visit object
termination_by unvisited catalog path
decreasing_by
  have listed := List.mem_reverse.1 ‹dependency ∈ _›
  have fresh := List.find?_eq_none.1 _closed dependency listed
  exact unvisited_lt (Catalog.dependencies_subset listed) (by simpa using fresh)

theorem depthFirst_of_closed {dependency : SqlObject}
    (closed : (catalog.dependencies object).find? (·.key ∈ path) = some dependency) :
    depthFirst catalog object path = ⟨[object], some (circle path dependency.key)⟩ := by
  rw [depthFirst]
  split
  · next same =>
    cases closed.symm.trans same
    rfl
  · next same => cases closed.symm.trans same

theorem depthFirst_of_open
    (opened : (catalog.dependencies object).find? (·.key ∈ path) = none) :
    depthFirst catalog object path =
      (inTurn ((catalog.dependencies object).reverse.map fun dependency =>
        depthFirst catalog dependency (path ++ [dependency.key]))).visit object := by
  rw [depthFirst]
  split
  · next same => cases opened.symm.trans same
  · exact congrArg (fun walks => (inTurn walks).visit object) (List.attach_map_val
      (f := fun dependency => depthFirst catalog dependency (path ++ [dependency.key])))

theorem circle_eq_close (path : List ObjectKey) (key : ObjectKey) :
    circle path key = .close path key := by
  rw [circle, Cycle.close, List.dropWhile_eq_drop_findIdx_not]
  simp [List.idxOf, bne]

theorem steps_eq (frame : Frame) (dependencies : List SqlObject) :
    steps frame dependencies =
      match dependencies.find? (·.key ∈ frame.path) with
      | some dependency => .error (.close frame.path dependency.key)
      | none => .ok (dependencies.map fun dependency =>
          ⟨dependency, frame.path ++ [dependency.key]⟩) := by
  induction dependencies with
  | nil => rfl
  | cons dependency rest ih =>
    by_cases held : dependency.key ∈ frame.path
    · simp [steps, Frame.step, held]
    · rw [List.find?_cons_of_neg (by simpa using held), steps, Frame.step, if_neg held, ih]
      cases rest.find? (·.key ∈ frame.path) <;> rfl

def Frame.call (catalog : Catalog) (frame : Frame) : Walk :=
  depthFirst catalog frame.object frame.path

theorem Frame.call_of_closed {frame : Frame} {cycle : Cycle}
    (closes : children catalog frame = .error cycle) :
    frame.call catalog = ⟨[frame.object], some cycle⟩ := by
  rw [children, steps_eq] at closes
  split at closes
  · next dependency met =>
    cases closes
    rw [call, depthFirst_of_closed met, circle_eq_close]
  · cases closes

theorem Frame.call_of_opened {frame : Frame} {below : List Frame}
    (opened : children catalog frame = .ok below) :
    frame.call catalog =
      (inTurn (below.reverse.map fun next => next.call catalog)).visit frame.object := by
  rw [children, steps_eq] at opened
  split at opened
  · cases opened
  · next free =>
    cases opened
    rw [call, depthFirst_of_open free, ← List.map_reverse, List.map_map]
    rfl

/-- A walk makes the calls that stand on its stack, from the top down. -/
theorem run_eq_inTurn (catalog : Catalog) (stack : List Frame) :
    run catalog stack = inTurn (stack.map fun frame => frame.call catalog) := by
  fun_induction run catalog stack with
  | case1 => rfl
  | case2 frame rest cycle closes =>
    rw [List.map_cons, inTurn, Frame.call_of_closed closes]
    rfl
  | case3 frame rest below opened ih =>
    -- The frames pushed are the calls below this one, which come before those of the rest.
    rw [List.map_append, inTurn_append] at ih
    rw [List.map_cons, inTurn, Frame.call_of_opened opened, visit_andThen, ih]

/-- The first objects of a walk. Its cycle is met only where more objects are asked for than come
before it. -/
def upTo (count : Nat) (walk : Walk) : Walk :=
  ⟨walk.visited.take count, if walk.visited.length < count then walk.cycle? else none⟩

theorem runFor_eq_upTo (catalog : Catalog) (count : Nat) (stack : List Frame) :
    runFor catalog count stack = (run catalog stack).upTo count := by
  fun_induction runFor catalog count stack with
  | case1 => simp [upTo, finished]
  | case2 count => simp [run, upTo, finished]
  | case3 frame rest =>
    cases below : children catalog frame with
    | error cycle =>
      rw [run_of_closed below]
      rfl
    | ok frames =>
      rw [run_of_opened below]
      simp [upTo, visit]
  | case4 count frame rest cycle closes =>
    rw [run_of_closed closes]
    simp [upTo]
  | case5 count frame rest below opened ih =>
    rw [run_of_opened opened, ih]
    simp [upTo, visit]

end Walk

inductive Catalog.Leads (catalog : Catalog) : SqlObject → List Nat → SqlObject → Prop
  | here {object : SqlObject} : Leads catalog object [] object
  | along {object next last : SqlObject} {column : Column} {place : Nat} {way : List Nat}
    (stands : object.columns[place]? = some column)
    (refers : catalog.columnTarget object column = some next)
    (leads : Leads catalog next way last) : Leads catalog object (place :: way) last

namespace Walk

variable {catalog : Catalog} {root object : SqlObject}

/-- A walk visits the ends of some ways, none of them twice. Unless it meets a cycle, it leaves none
of them out. -/
structure Takes (leads : List Nat → SqlObject → Prop) (walk : Walk)
    (routes : List (List Nat × SqlObject)) : Prop where
  visits : routes.map (·.2) = walk.visited
  once : (routes.map (·.1)).Nodup
  sound : ∀ way last, (way, last) ∈ routes → leads way last
  complete : walk.cycle? = none → ∀ way last, leads way last → (way, last) ∈ routes

def LeadsAlong (catalog : Catalog) (references : List (SqlObject × Nat)) (way : List Nat)
    (last : SqlObject) : Prop :=
  ∃ reference ∈ references, ∃ rest,
    way = reference.2 :: rest ∧ catalog.Leads reference.1 rest last

def routesAlong (place : Nat) (routes : List (List Nat × SqlObject)) :
    List (List Nat × SqlObject) := routes.map fun route => (place :: route.1, route.2)

theorem mem_routesAlong_iff {place : Nat} {routes : List (List Nat × SqlObject)} {way : List Nat}
    {last : SqlObject} :
    (way, last) ∈ routesAlong place routes ↔
      ∃ rest, way = place :: rest ∧ (rest, last) ∈ routes := by
  simp [routesAlong, eq_comm, and_comm]

theorem map_fst_routesAlong (place : Nat) (routes : List (List Nat × SqlObject)) :
    (routesAlong place routes).map (·.1) = (routes.map (·.1)).map (place :: ·) := by
  rw [routesAlong, List.map_map, List.map_map]
  rfl

theorem map_snd_routesAlong (place : Nat) (routes : List (List Nat × SqlObject)) :
    (routesAlong place routes).map (·.2) = routes.map (·.2) := by
  rw [routesAlong, List.map_map]
  rfl

theorem LeadsAlong.tail {reference : SqlObject × Nat} {others : List (SqlObject × Nat)}
    {way : List Nat} {last : SqlObject} (along : LeadsAlong catalog others way last) :
    LeadsAlong catalog (reference :: others) way last := by
  obtain ⟨other, listed, rest, rfl, leads⟩ := along
  exact ⟨other, .tail _ listed, rest, rfl, leads⟩

theorem Takes.inTurn_cons {reference : SqlObject × Nat} {others : List (SqlObject × Nat)}
    {walk : Walk} {walks : List Walk} {first rest : List (List Nat × SqlObject)}
    (fresh : reference.2 ∉ others.map (·.2))
    (one : Takes (catalog.Leads reference.1) walk first)
    (later : Takes (LeadsAlong catalog others) (inTurn walks) rest) :
    ∃ routes, Takes (LeadsAlong catalog (reference :: others)) (inTurn (walk :: walks)) routes := by
  have visits : (routesAlong reference.2 first).map (·.2) = walk.visited :=
    (map_snd_routesAlong _ _).trans one.visits
  have once : ((routesAlong reference.2 first).map (·.1)).Nodup := by
    rw [map_fst_routesAlong]
    exact one.once.map List.cons_injective
  have sound : ∀ way last, (way, last) ∈ routesAlong reference.2 first →
      LeadsAlong catalog (reference :: others) way last := by
    intro way last route
    obtain ⟨rest, rfl, taken⟩ := mem_routesAlong_iff.1 route
    exact ⟨reference, List.mem_cons_self, rest, rfl, one.sound _ _ taken⟩
  cases met : walk.cycle? with
  | some cycle =>
    refine ⟨routesAlong reference.2 first, ?_, once, sound, ?_⟩
    · simpa [inTurn, andThen, met] using visits
    · simp [inTurn, andThen, met]
  | none =>
    refine ⟨routesAlong reference.2 first ++ rest, ?_, ?_, ?_, ?_⟩
    · simp [inTurn, andThen, met, visits, later.visits]
    · rw [List.map_append]
      refine List.nodup_append.2 ⟨once, later.once, ?_⟩
      rintro way early _ late rfl
      rw [map_fst_routesAlong] at early
      obtain ⟨way, _, rfl⟩ := List.mem_map.1 early
      obtain ⟨⟨_, last⟩, route, rfl⟩ := List.mem_map.1 late
      obtain ⟨other, listed, _, same, _⟩ := later.sound _ last route
      exact fresh (List.mem_map.2 ⟨other, listed, (List.cons.inj same).1.symm⟩)
    · intro way last route
      rcases List.mem_append.1 route with early | late
      · exact sound way last early
      · exact (later.sound way last late).tail
    · rintro complete way last ⟨other, listed, way, rfl, leads⟩
      rcases List.mem_cons.1 listed with rfl | listed
      · exact List.mem_append_left _ (mem_routesAlong_iff.2 ⟨way, rfl, one.complete met _ _ leads⟩)
      · refine List.mem_append_right _ (later.complete ?_ _ _ ⟨other, listed, way, rfl, leads⟩)
        simpa [inTurn, andThen, met] using complete

theorem exists_takes_inTurn (call : SqlObject → Walk) {references : List (SqlObject × Nat)}
    (distinct : (references.map (·.2)).Nodup)
    (taken : ∀ reference ∈ references,
      ∃ routes, Takes (catalog.Leads reference.1) (call reference.1) routes) :
    ∃ routes, Takes (LeadsAlong catalog references)
      (inTurn (references.map fun reference => call reference.1)) routes := by
  induction references with
  | nil => exact ⟨[], rfl, List.nodup_nil, fun _ _ => nofun, fun _ _ _ => nofun⟩
  | cons reference others ih =>
    obtain ⟨place_new, distinct⟩ := List.nodup_cons.1 distinct
    obtain ⟨first, one⟩ := taken reference List.mem_cons_self
    obtain ⟨rest, later⟩ := ih distinct fun other listed => taken other (.tail _ listed)
    exact one.inTurn_cons place_new later

def references (catalog : Catalog) (object : SqlObject) : List (SqlObject × Nat) :=
  object.columns.zipIdx.filterMap fun column =>
    (catalog.columnTarget object column.1).map (·, column.2)

theorem mem_references_iff {next : SqlObject} {place : Nat} :
    (next, place) ∈ references catalog object ↔
      ∃ column, object.columns[place]? = some column ∧
        catalog.columnTarget object column = some next := by
  simp only [references, List.mem_filterMap, Prod.exists, List.mk_mem_zipIdx_iff_getElem?,
    Option.map_eq_some_iff, Prod.mk.injEq]
  constructor
  · rintro ⟨column, _, stands, _, refers, rfl, rfl⟩
    exact ⟨column, stands, refers⟩
  · rintro ⟨column, stands, refers⟩
    exact ⟨column, place, stands, next, refers, rfl, rfl⟩

theorem map_fst_references (catalog : Catalog) (object : SqlObject) :
    (references catalog object).map (·.1) = catalog.dependencies object := by
  have columns : object.columns.zipIdx.map (·.1) = object.columns := List.zipIdx_map_fst 0 _
  rw [references, List.map_filterMap, Catalog.dependencies]
  conv_rhs => rw [← columns, List.filterMap_map]
  congr 1
  funext column
  simp [Option.map_map, Function.comp_def]

theorem nodup_places (catalog : Catalog) (object : SqlObject) :
    ((references catalog object).map (·.2)).Nodup := by
  have places : (object.columns.zipIdx.map (·.2)).Nodup := by
    rw [List.zipIdx_map_snd]
    exact List.nodup_range'
  refine List.pairwise_map.2 ((List.pairwise_map.1 places).filterMap _ ?_)
  intro first second different one given other alsoGiven
  obtain ⟨_, _, rfl⟩ := Option.map_eq_some_iff.1 given
  obtain ⟨_, _, rfl⟩ := Option.map_eq_some_iff.1 alsoGiven
  exact different

theorem leads_iff {way : List Nat} {last : SqlObject} :
    catalog.Leads object way last ↔
      (way = [] ∧ object = last) ∨
        LeadsAlong catalog (references catalog object).reverse way last := by
  constructor
  · rintro (_ | ⟨stands, refers, leads⟩)
    · exact .inl ⟨rfl, rfl⟩
    · have listed := List.mem_reverse.2 (mem_references_iff.2 ⟨_, stands, refers⟩)
      exact .inr ⟨_, listed, _, rfl, leads⟩
  · rintro (⟨rfl, rfl⟩ | ⟨⟨next, place⟩, listed, rest, rfl, leads⟩)
    · exact .here
    · obtain ⟨column, stands, refers⟩ := mem_references_iff.1 (List.mem_reverse.1 listed)
      exact .along stands refers leads

theorem Takes.visit {walk : Walk} {routes : List (List Nat × SqlObject)}
    (taken : Takes (LeadsAlong catalog (references catalog object).reverse) walk routes) :
    Takes (catalog.Leads object) (walk.visit object) (([], object) :: routes) where
  visits := congrArg (object :: ·) taken.visits
  once := by
    refine List.nodup_cons.2 ⟨fun again => ?_, taken.once⟩
    obtain ⟨⟨_, last⟩, route, rfl⟩ := List.mem_map.1 again
    obtain ⟨_, _, _, same, _⟩ := taken.sound _ last route
    cases same
  sound way last route := by
    rw [leads_iff]
    rcases List.mem_cons.1 route with same | route
    · cases same
      exact .inl ⟨rfl, rfl⟩
    · exact .inr (taken.sound way last route)
  complete free way last leads := by
    rcases leads_iff.1 leads with ⟨rfl, rfl⟩ | along
    · exact List.mem_cons_self
    · exact List.mem_cons_of_mem _ (taken.complete free way last along)

theorem exists_takes (catalog : Catalog) (object : SqlObject) (path : List ObjectKey) :
    ∃ routes, Takes (catalog.Leads object) (depthFirst catalog object path) routes := by
  induction object, path using depthFirst.induct catalog with
  | case1 object path dependency closed =>
    rw [depthFirst_of_closed closed]
    refine ⟨[([], object)], rfl, List.nodup_singleton _, ?_, nofun⟩
    intro way last route
    cases List.mem_singleton.1 route
    exact .here
  | case2 object path opened ih =>
    rw [depthFirst_of_open opened, ← map_fst_references, ← List.map_reverse, List.map_map]
    have below : ∀ reference ∈ (references catalog object).reverse, ∃ routes,
        Takes (catalog.Leads reference.1)
          (depthFirst catalog reference.1 (path ++ [reference.1.key])) routes := by
      intro reference listed
      have given : reference.1 ∈ catalog.dependencies object :=
        map_fst_references catalog object ▸ List.mem_map_of_mem (List.mem_reverse.1 listed)
      exact ih reference.1 (List.mem_reverse.2 given)
    have distinct : ((references catalog object).reverse.map (·.2)).Nodup := by
      rw [List.map_reverse, List.nodup_reverse]
      exact nodup_places catalog object
    obtain ⟨routes, taken⟩ := exists_takes_inTurn
      (fun dependency => depthFirst catalog dependency (path ++ [dependency.key]))
      distinct below
    exact ⟨_, taken.visit⟩

structure RunsDepthFirst (catalog : Catalog) (root : SqlObject) : Prop where
  whole : catalog.walkUpTo none root = .ok (depthFirst catalog root [root.key])
  beginning : ∀ count, catalog.walkUpTo (some count) root =
    .ok ((depthFirst catalog root [root.key]).upTo count)
  /-- It visits an object once for every way that leads there, as far as it gets. -/
  ways : ∃ routes, Takes (catalog.Leads root) (depthFirst catalog root [root.key]) routes

theorem walk_eq_depthFirst (catalog : Catalog) (root : SqlObject) :
    catalog.walk root = depthFirst catalog root [root.key] := by
  rw [Catalog.walk, run_eq_inTurn, List.map_singleton, inTurn, inTurn, andThen_finished]
  rfl

theorem walkUpTo_some (walkable : root.kind ≠ .schema) (count : Nat) :
    catalog.walkUpTo (some count) root = .ok ((catalog.walk root).upTo count) := by
  have first : catalog.walkUpTo (some count) root = .ok (catalog.walkFor count root) := by
    cases count with
    | zero => simp [Catalog.walkUpTo, Catalog.walkFor, runFor]
    | succ count =>
      cases root with
      | schema name => exact absurd rfl walkable
      | enum definition => rfl
      | composite definition => rfl
      | table definition => rfl
  rw [first, Catalog.walkFor, runFor_eq_upTo]
  rfl

theorem runsDepthFirst_of_walkable (catalog : Catalog) (walkable : root.kind ≠ .schema) :
    RunsDepthFirst catalog root where
  whole := by rw [Catalog.walkUpTo_none walkable, walk_eq_depthFirst]
  beginning count := by rw [walkUpTo_some walkable, walk_eq_depthFirst]
  ways := exists_takes catalog root [root.key]

end Walk

namespace Sample

theorem runsDepthFirst_tree :
    (SqlObject.table tree).kind ≠ .schema ∧ Walk.RunsDepthFirst tangle (.table tree) ∧
      Walk.depthFirst tangle (.table tree) [(SqlObject.table tree).key] =
        ⟨[.table tree, .composite node, .composite branch],
          some ⟨["sales.node", "sales.branch", "sales.node"]⟩⟩ :=
  ⟨nofun, Walk.runsDepthFirst_of_walkable tangle nofun, by decide +kernel⟩

end Sample

end SchemaScript
