import SchemaScript.Proofs.Reach

/-!
The loop of a walk, turn by turn. A turn takes the top frame off the stack, visits its object and
puts a frame for each dependency in its place. The stack grows lighter with every turn, so the loop
comes to an end; and what every frame hands down to the frames below it holds of all that ever
stand on the stack.
-/

namespace SchemaScript

namespace Walk

variable {catalog : Catalog} {stack later : List Frame} {visited : List SqlObject} {cycle : Cycle}

/-- Turns of the loop lead from one stack to a later one and visit objects on the way. -/
inductive Turns (catalog : Catalog) : List Frame → List SqlObject → List Frame → Prop
  | none {stack : List Frame} : Turns catalog stack [] stack
  | pop {frame : Frame} {rest below later : List Frame} {visited : List SqlObject}
    (opened : children catalog frame = .ok below)
    (more : Turns catalog (below.reverse ++ rest) visited later) :
    Turns catalog (frame :: rest) (frame.object :: visited) later

/-- How the loop ends: with nothing left on the stack, or at a frame below which a path closes. -/
inductive EndsIn (catalog : Catalog) (stack : List Frame) : Walk → Prop
  | finished {visited : List SqlObject} (turns : Turns catalog stack visited []) :
    EndsIn catalog stack ⟨visited, none⟩
  | closed {visited : List SqlObject} {frame : Frame} {rest : List Frame} {cycle : Cycle}
    (turns : Turns catalog stack visited (frame :: rest))
    (closes : children catalog frame = .error cycle) :
    EndsIn catalog stack ⟨visited ++ [frame.object], some cycle⟩

theorem EndsIn.pop {frame : Frame} {rest below : List Frame} {walk : Walk}
    (opened : children catalog frame = .ok below)
    (ends : EndsIn catalog (below.reverse ++ rest) walk) :
    EndsIn catalog (frame :: rest) (walk.visit frame.object) := by
  cases ends with
  | finished turns => exact .finished (.pop opened turns)
  | closed turns closes => exact .closed (.pop opened turns) closes

theorem endsIn_run (catalog : Catalog) (stack : List Frame) :
    EndsIn catalog stack (run catalog stack) := by
  fun_induction run catalog stack with
  | case1 => exact .finished .none
  | case2 frame rest cycle below => exact .closed .none below
  | case3 frame rest frames below ih => exact .pop below ih

theorem run_of_opened {frame : Frame} {rest below : List Frame}
    (opened : children catalog frame = .ok below) :
    run catalog (frame :: rest) = (run catalog (below.reverse ++ rest)).visit frame.object := by
  rw [run]
  split
  · next closes => cases opened.symm.trans closes
  · next same =>
    cases opened.symm.trans same
    rfl

theorem run_of_closed {frame : Frame} {rest : List Frame}
    (closes : children catalog frame = .error cycle) :
    run catalog (frame :: rest) = ⟨[frame.object], some cycle⟩ := by
  rw [run]
  split
  · next same =>
    cases closes.symm.trans same
    rfl
  · next opened => cases closes.symm.trans opened

theorem Turns.run_eq (turns : Turns catalog stack visited later) :
    run catalog stack = ⟨visited ++ (run catalog later).visited, (run catalog later).cycle?⟩ := by
  induction turns with
  | none => rfl
  | pop opened more ih =>
    rw [run_of_opened opened, ih]
    rfl

theorem endsIn_iff {walk : Walk} : EndsIn catalog stack walk ↔ walk = run catalog stack := by
  constructor
  · intro ends
    cases ends with
    | finished turns =>
      rw [turns.run_eq, run, finished, List.append_nil]
    | closed turns closes => rw [turns.run_eq, run_of_closed closes]
  · rintro rfl
    exact endsIn_run catalog stack

theorem exists_turns_of_cycle (met : (run catalog stack).cycle? = some cycle) :
    ∃ visited frame rest, Turns catalog stack visited (frame :: rest) ∧
      children catalog frame = .error cycle := by
  generalize ran : run catalog stack = walk at met
  cases endsIn_iff.2 ran.symm with
  | finished turns => cases met
  | closed turns closes =>
    cases met
    exact ⟨_, _, _, turns, closes⟩

theorem Turns.length_add_totalWeight_le (turns : Turns catalog stack visited later) :
    visited.length + totalWeight catalog later ≤ totalWeight catalog stack := by
  induction turns with
  | none => simp
  | @pop frame rest below later visited opened more ih =>
    have lighter := @totalWeight_children_lt _ _ _ rest opened
    rw [List.length_cons]
    omega

theorem exists_step_of_mem_steps {frame next : Frame} {dependencies : List SqlObject}
    {frames : List Frame} (opened : steps frame dependencies = .ok frames)
    (listed : next ∈ frames) : ∃ dependency ∈ dependencies, frame.step dependency = .ok next := by
  induction dependencies generalizing frames with
  | nil =>
    cases opened
    cases listed
  | cons dependency rest ih =>
    obtain ⟨top, others, first, later, rfl⟩ := steps_cons_eq_ok_iff.1 opened
    rcases List.mem_cons.1 listed with rfl | listed
    · exact ⟨dependency, List.mem_cons_self, first⟩
    · obtain ⟨other, given, stepped⟩ := ih later listed
      exact ⟨other, List.mem_cons_of_mem _ given, stepped⟩

theorem exists_step_of_steps_error {frame : Frame} {dependencies : List SqlObject}
    (closes : steps frame dependencies = .error cycle) :
    ∃ dependency ∈ dependencies, frame.step dependency = .error cycle := by
  induction dependencies with
  | nil => cases closes
  | cons dependency rest ih =>
    simp only [steps] at closes
    split at closes
    · next first =>
      cases closes
      exact ⟨dependency, List.mem_cons_self, first⟩
    · split at closes
      · next others =>
        cases closes
        obtain ⟨other, given, stepped⟩ := ih others
        exact ⟨other, List.mem_cons_of_mem _ given, stepped⟩
      · cases closes

theorem exists_step_of_children_error {frame : Frame}
    (closes : children catalog frame = .error cycle) :
    ∃ dependency, catalog.DependsOn frame.object dependency ∧
      frame.step dependency = .error cycle := by
  obtain ⟨dependency, listed, stepped⟩ := exists_step_of_steps_error closes
  exact ⟨dependency, Catalog.mem_dependencies.1 listed, stepped⟩

/-- What frames hand down to the frames below them holds on every later stack. -/
theorem Turns.forall_mem {holds : Frame → Prop}
    (inherited : ∀ frame dependency next, holds frame →
      catalog.DependsOn frame.object dependency → frame.step dependency = .ok next → holds next)
    (turns : Turns catalog stack visited later) (start : ∀ frame ∈ stack, holds frame) :
    ∀ frame ∈ later, holds frame := by
  induction turns with
  | none => exact start
  | @pop top rest below later visited opened more ih =>
    refine ih fun next stacked => ?_
    rcases List.mem_append.1 stacked with child | pending
    · obtain ⟨dependency, listed, stepped⟩ :=
        exists_step_of_mem_steps opened (List.mem_reverse.1 child)
      exact inherited top dependency next (start top List.mem_cons_self)
        (Catalog.mem_dependencies.1 listed) stepped
    · exact start next (List.mem_cons_of_mem _ pending)

end Walk

end SchemaScript
