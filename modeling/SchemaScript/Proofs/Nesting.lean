import Mathlib.Data.List.Induction
import SchemaScript.Log.Nesting
import SchemaScript.Proofs.Keys

/-!
Nested blocks. Every block leaves the stack of contexts as it found it, however it is left, and what
is logged at a place knows just what the blocks around that place say: of each aspect what the
innermost one says that says anything, of further entries those of all blocks, inner ones first.
-/

namespace SchemaScript.Log

open Value

structure Place where
  blocks : List Keywords
  remark : Remark

def Place.recordFrom (context : Context) (place : Place) : Record :=
  place.remark.record ((place.blocks.map Keywords.block).foldl Context.enter context)

def Place.record (place : Place) : Record := place.recordFrom .empty

mutual

def Step.fails : Step → Bool
  | .log _ => false
  | .fail => true
  | .guarded _ => false
  | .block keywords body => keywords.isRefused || failsAny body

def failsAny : List Step → Bool
  | [] => false
  | step :: rest => step.fails || failsAny rest

end

mutual

/-- The places that are passed, inside some blocks, up to a failure that gets out. -/
def Step.places (around : List Keywords) : Step → List Place
  | .log remark => [⟨around, remark⟩]
  | .fail => []
  | .guarded body => placesAll around body
  | .block keywords body =>
    if keywords.isRefused then [] else placesAll (around ++ [keywords]) body

def placesAll (around : List Keywords) : List Step → List Place
  | [] => []
  | step :: rest => step.places around ++ if step.fails then [] else placesAll around rest

end

mutual

theorem Step.run_eq {stack : List Context} {context : Context} {around : List Keywords}
    (held : current stack = (around.map Keywords.block).foldl Context.enter context)
    (step : Step) :
    step.run stack =
      ⟨stack, (step.places around).map (Place.recordFrom context), step.fails⟩ := by
  cases step with
  | log remark => simp [Step.run, Step.places, Step.fails, Place.recordFrom, held]
  | fail => rfl
  | guarded body =>
    rw [Step.run, runAll_eq held body]
    rfl
  | block keywords body =>
    -- The context that is put on the stack is that of the blocks around the body.
    have inside : current ((current stack).enter keywords.block :: stack) =
        ((around ++ [keywords]).map Keywords.block).foldl Context.enter context := by
      rw [List.map_append, List.foldl_append, ← held]
      rfl
    rw [Step.run, runAll_eq inside body]
    cases refused : keywords.isRefused with
    | true => simp [Step.places, Step.fails, refused]
    | false => simp [Step.places, Step.fails, refused]

theorem runAll_eq {stack : List Context} {context : Context} {around : List Keywords}
    (held : current stack = (around.map Keywords.block).foldl Context.enter context)
    (steps : List Step) :
    runAll stack steps =
      ⟨stack, (placesAll around steps).map (Place.recordFrom context), failsAny steps⟩ := by
  cases steps with
  | nil => rfl
  | cons step rest =>
    rw [runAll, Step.run_eq held step]
    cases failed : step.fails with
    | true => simp [placesAll, failsAny, failed]
    | false => simp [placesAll, failsAny, failed, runAll_eq held rest]

end

theorem Step.stack_run (stack : List Context) (step : Step) : (step.run stack).stack = stack := by
  have held : current stack =
      (List.map Keywords.block []).foldl Context.enter (current stack) := rfl
  rw [Step.run_eq held step]

theorem Aspect.mem_all (aspect : Aspect) : aspect ∈ Aspect.all := by
  cases aspect <;> decide

theorem Aspect.name_injective {a b : Aspect} (same : a.name = b.name) : a = b := by
  cases a <;> cases b <;> first | rfl | exact absurd same (by decide)

theorem lookup_filterMap (f : Aspect → Option Value) (aspects : List Aspect) (aspect : Aspect) :
    (aspects.filterMap fun aspect => (f aspect).map (aspect, ·)).lookup aspect =
      if aspect ∈ aspects then f aspect else none := by
  induction aspects with
  | nil => rfl
  | cons first rest ih =>
    by_cases same : aspect = first
    · subst same
      cases given : f aspect with
      | none => simp [given, ih]
      | some value => simp [given]
    · cases given : f first with
      | none => simp [given, ih, same]
      | some value => simp [given, ih, List.lookup_cons, beq_false_of_ne same, same]

theorem lookup_aspects_block (keywords : Keywords) (aspect : Aspect) :
    keywords.block.aspects.lookup aspect = keywords.value? aspect :=
  (lookup_filterMap _ _ _).trans (if_pos aspect.mem_all)

/-- What the innermost of some blocks has that has any. -/
def innermost? {α : Type} (blocks : List Keywords) (what : Keywords → Option α) : Option α :=
  blocks.reverse.findSome? what

theorem innermost?_concat {α : Type} (blocks : List Keywords) (block : Keywords)
    (what : Keywords → Option α) :
    innermost? (blocks ++ [block]) what = (what block).or (innermost? blocks what) := by
  rw [innermost?, List.reverse_append, List.reverse_singleton, List.singleton_append,
    List.findSome?_cons]
  cases what block <;> rfl

theorem within_concat (blocks : List Keywords) (block : Keywords) :
    Context.within ((blocks ++ [block]).map Keywords.block) =
      (Context.within (blocks.map Keywords.block)).enter block.block := by
  rw [List.map_append]
  exact Context.within_append_singleton _ _

theorem aspect_within (blocks : List Keywords) (aspect : Aspect) :
    (Context.within (blocks.map Keywords.block)).aspect aspect =
      (innermost? blocks (·.value? aspect)).getD .null := by
  induction blocks using List.reverseRecOn with
  | nil => rfl
  | append_singleton blocks block ih =>
    rw [within_concat, innermost?_concat, Option.getD_or, ← ih, ← lookup_aspects_block]
    rfl

theorem isMapping_extra_within {blocks : List Keywords}
    (mappings : ∀ block ∈ blocks, IsMapping block.extra) :
    IsMapping (Context.within (blocks.map Keywords.block)).extra := by
  induction blocks using List.reverseRecOn with
  | nil => exact ⟨nofun, .nil⟩
  | append_singleton blocks block ih =>
    rw [within_concat]
    exact isMapping_updated (ih fun other member => mappings other (by simp [member]))
      (mappings block (by simp))

theorem heldAt?_extra_within {blocks : List Keywords}
    (mappings : ∀ block ∈ blocks, IsMapping block.extra) {key : Value} (isKey : key.IsKey) :
    heldAt? (Context.within (blocks.map Keywords.block)).extra key =
      innermost? blocks fun block => heldAt? block.extra key := by
  induction blocks using List.reverseRecOn with
  | nil => rfl
  | append_singleton blocks block ih =>
    have others : ∀ other ∈ blocks, IsMapping other.extra :=
      fun other member => mappings other (by simp [member])
    rw [within_concat, innermost?_concat, ← ih others]
    exact heldAt?_updated (isMapping_extra_within others) (mappings block (by simp)) isKey

namespace Context

def named (context : Context) : List (Value × Value) :=
  Aspect.all.filterMap fun aspect =>
    if isNothing (context.aspect aspect) then none
    else some (Value.text aspect.name, context.aspect aspect)

theorem entries_eq (context : Context) :
    context.entries = updated context.named context.extra := rfl

theorem mem_named {context : Context} {entry : Value × Value} :
    entry ∈ context.named ↔ ∃ aspect, isNothing (context.aspect aspect) = false ∧
      entry = (.text aspect.name, context.aspect aspect) := by
  simp only [named, List.mem_filterMap, Aspect.mem_all, true_and]
  refine exists_congr fun aspect => ?_
  cases isNothing (context.aspect aspect) <;> simp [eq_comm]

theorem isMapping_named (context : Context) : IsMapping context.named where
  keys entry member := by
    obtain ⟨aspect, -, rfl⟩ := mem_named.1 member
    exact isKey_text _
  once := by
    have apart : Aspect.all.Pairwise fun a b => a.name ≠ b.name := by decide
    refine apart.filterMap _ fun a b other entry found entry' found' => ?_
    simp only [Option.ite_none_left_eq_some, Option.some.injEq] at found found'
    obtain ⟨-, rfl⟩ := found
    obtain ⟨-, rfl⟩ := found'
    exact Bool.eq_false_iff.2 fun same => other (by simpa using sameKey_text_iff.1 same)

theorem heldAt?_named (context : Context) (aspect : Aspect) :
    heldAt? context.named (.text aspect.name) =
      if isNothing (context.aspect aspect) then none else some (context.aspect aspect) := by
  refine Option.ext fun value => ?_
  rw [context.isMapping_named.heldAt?_eq_some_iff (isKey_text _), Option.ite_none_left_eq_some]
  constructor
  · rintro ⟨entry, member, same, rfl⟩
    obtain ⟨other, given, rfl⟩ := mem_named.1 member
    obtain rfl := Aspect.name_injective (by simpa using sameKey_text_iff.1 same)
    exact ⟨by simp [given], rfl⟩
  · rintro ⟨given, same⟩
    exact ⟨_, mem_named.2 ⟨aspect, by simpa using given, rfl⟩, sameKey_text_iff.2 rfl,
      Option.some.inj same⟩

theorem heldAt?_named_of_ne (context : Context) {key : Value} (isKey : key.IsKey)
    (other : ∀ aspect : Aspect, key ≠ .text aspect.name) : heldAt? context.named key = none := by
  refine Option.eq_none_iff_forall_ne_some.2 fun value found => ?_
  obtain ⟨entry, member, same, -⟩ :=
    (context.isMapping_named.heldAt?_eq_some_iff isKey).1 found
  obtain ⟨aspect, -, rfl⟩ := mem_named.1 member
  exact other aspect (text_sameKey_iff.1 same)

theorem isMapping_entries {context : Context} (extra : IsMapping context.extra) :
    IsMapping context.entries := by
  rw [entries_eq]
  exact isMapping_updated context.isMapping_named extra

theorem heldAt?_entries {context : Context} (extra : IsMapping context.extra) {key : Value}
    (isKey : key.IsKey) :
    heldAt? context.entries key = (heldAt? context.extra key).or (heldAt? context.named key) := by
  rw [entries_eq]
  exact heldAt?_updated context.isMapping_named extra isKey

end Context

variable {own : List (Value × Value)} {context : Context}

theorem dataOf_some (own : List (Value × Value)) (context : Context) (component : Component) :
    dataOf own context (some component) =
      if (heldAt? (updated own context.entries) (.text Aspect.component.name)).isSome then
        updated own context.entries
      else updated own context.entries ++
        [(.text Aspect.component.name, .text component.text)] := by
  rw [dataOf, ← field?_eq_heldAt?]

theorem isMapping_dataOf (mapping : IsMapping own) (mapping' : IsMapping context.entries)
    (component : Option Component) : IsMapping (dataOf own context component) := by
  have merged := isMapping_updated mapping mapping'
  cases component with
  | none => exact merged
  | some component =>
    rw [dataOf_some]
    split
    · exact merged
    · next absent => exact merged.append_singleton (isKey_text _) (by simpa using absent)

theorem heldAt?_dataOf (mapping : IsMapping own) (mapping' : IsMapping context.entries)
    (component : Option Component) {key : Value} (isKey : key.IsKey) :
    heldAt? (dataOf own context component) key =
      ((heldAt? context.entries key).or (heldAt? own key)).or
        (component.bind fun component =>
          heldAt? [(.text Aspect.component.name, .text component.text)] key) := by
  rw [← heldAt?_updated mapping mapping' isKey]
  cases component with
  | none => exact Option.or_none.symm
  | some component =>
    rw [dataOf_some, Option.bind_some]
    split
    · next there =>
      rw [heldAt?_cons, heldAt?_nil]
      split
      · next same =>
        obtain rfl := text_sameKey_iff.1 same
        exact (Option.or_of_isSome there).symm
      · exact Option.or_none.symm
    · exact heldAt?_append _ _ key

theorem component_elsewhere {key : Value} (other : key ≠ .text "component")
    (component : Option Component) :
    (component.bind fun component =>
      heldAt? [(.text Aspect.component.name, .text component.text)] key) = none := by
  cases component with
  | none => rfl
  | some component =>
    have apart : ¬ (Value.text Aspect.component.name).sameKey key = true :=
      fun same => other (text_sameKey_iff.1 same)
    rw [Option.bind_some, heldAt?_cons, if_neg apart, heldAt?_nil]

structure Place.IsProper (place : Place) : Prop where
  extra : ∀ block ∈ place.blocks, IsMapping block.extra
  own : IsMapping place.remark.own

/-- What is logged at a place is what the blocks around it and the record itself have to say. -/
structure Place.Told (place : Place) (record : Record) : Prop where
  aspect : ∀ aspect, record.context.aspect aspect =
    (innermost? place.blocks (·.value? aspect)).getD .null
  extra_mapping : IsMapping record.context.extra
  extra : ∀ key, key.IsKey → heldAt? record.context.extra key =
    innermost? place.blocks fun block => heldAt? block.extra key
  entries_mapping : IsMapping record.context.entries
  entries_named : ∀ aspect, heldAt? record.context.entries (.text (Aspect.name aspect)) =
    (heldAt? record.context.extra (.text aspect.name)).or
      (if Context.isNothing (record.context.aspect aspect) then none
        else some (record.context.aspect aspect))
  entries_other : ∀ key, key.IsKey → (∀ aspect : Aspect, key ≠ .text aspect.name) →
    heldAt? record.context.entries key = heldAt? record.context.extra key
  data_mapping : IsMapping record.data
  data_component : heldAt? record.data (.text "component") =
    ((heldAt? record.context.entries (.text "component")).or
      (heldAt? place.remark.own (.text "component"))).or
        (place.remark.component.map fun component => .text component.text)
  data_other : ∀ key, key.IsKey → key ≠ .text "component" → heldAt? record.data key =
    (heldAt? record.context.entries key).or (heldAt? place.remark.own key)

theorem Place.IsProper.told {place : Place} (proper : place.IsProper) :
    place.Told place.record := by
  have extra := isMapping_extra_within proper.extra
  have entries := Context.isMapping_entries extra
  exact
    { aspect := aspect_within place.blocks
      extra_mapping := extra
      extra := fun key isKey => heldAt?_extra_within proper.extra isKey
      entries_mapping := entries
      entries_named := fun aspect =>
        (Context.heldAt?_entries extra (isKey_text _)).trans (by rw [Context.heldAt?_named]; rfl)
      entries_other := fun key isKey other =>
        (Context.heldAt?_entries extra isKey).trans (by
          rw [Context.heldAt?_named_of_ne _ isKey other, Option.or_none]; rfl)
      data_mapping := isMapping_dataOf proper.own entries _
      data_component := by
        refine (heldAt?_dataOf proper.own entries _ (isKey_text _)).trans ?_
        cases place.remark.component <;> rfl
      data_other := fun key isKey other => by
        refine (heldAt?_dataOf proper.own entries _ isKey).trans ?_
        rw [component_elsewhere other, Option.or_none]
        rfl }

/-- Nested blocks give each record what the blocks around it have to say, and leave nothing
behind. -/
structure KeepsToBlocks (program : List Step) : Prop where
  restored : ∀ (stack : List Context) (step : Step), (step.run stack).stack = stack
  left : (runAll [] program).stack = []
  failed : (runAll [] program).failed = failsAny program
  records : (runAll [] program).records = (placesAll [] program).map Place.record
  told : ∀ place ∈ placesAll [] program, place.IsProper → place.Told place.record

theorem keepsToBlocks (program : List Step) : KeepsToBlocks program := by
  have held : current [] = (List.map Keywords.block []).foldl Context.enter .empty := rfl
  have run := runAll_eq held program
  exact
    { restored := Step.stack_run
      left := by rw [run]
      failed := by rw [run]
      records := by rw [run]; rfl
      told := fun place _ proper => proper.told }

example :
    let load : Keywords :=
      [("operation", .text "load"), ("extra", .mapping [(.text "run", .integer 1)])]
    let hidden : Keywords :=
      [("operation", .null), ("extra", .mapping [(.text "run", .integer 2)])]
    let remark : Remark := ⟨"", some .loader, .info, "", [], none⟩
    let program : List Step :=
      [.block load [.guarded [.block hidden [.log remark, .fail]], .log remark], .log remark]
    (runAll [] program).records.map (fun record => record.data.length) = [2, 3, 1] := by
  decide

end SchemaScript.Log
