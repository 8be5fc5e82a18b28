import SchemaScript.Proofs.Merge

/-!
What staging leaves out. A name is reported once for every occurrence but its first, so the reports
of a batch depend on which names occur in it and how often, not on the order of its definitions or
on the collections in which they stand. Those on one category come in the order of its definitions.
-/

namespace SchemaScript

section Repeats

variable {α κ : Type} [DecidableEq κ] {key : α → κ} {known : List κ} {items : List α}

def repeatsFrom (key : α → κ) (known : List κ) (items : List α) : List α :=
  (items.zipIdx.filter fun item => key item.1 ∈ known ++ (items.take item.2).map key).map (·.1)

theorem repeatsFrom_nil (known : List κ) : repeatsFrom key known [] = [] := rfl

theorem repeatsFrom_cons (known : List κ) (a : α) (rest : List α) :
    repeatsFrom key known (a :: rest) =
      (if key a ∈ known then [a] else []) ++ repeatsFrom key (known ++ [key a]) rest := by
  -- In the rest every place is one higher, and the first element is now before all of them.
  have later : repeatsFrom key (known ++ [key a]) rest =
      ((rest.zipIdx 1).filter fun item =>
        key item.1 ∈ known ++ ((a :: rest).take item.2).map key).map (·.1) := by
    rw [repeatsFrom, List.zipIdx_succ, List.filter_map, List.map_map]
    simp [Function.comp_def]
  rw [later, repeatsFrom, List.zipIdx_cons, List.filter_cons]
  split <;> simp_all

theorem repeatsFrom_congr {other : List κ} (same : ∀ k, k ∈ known ↔ k ∈ other) (items : List α) :
    repeatsFrom key known items = repeatsFrom key other items := by
  unfold repeatsFrom
  simp only [List.mem_append, same]

theorem repeatsFrom_append (known : List κ) (first second : List α) :
    repeatsFrom key known (first ++ second) =
      repeatsFrom key known first ++ repeatsFrom key (known ++ first.map key) second := by
  induction first generalizing known with
  | nil => simp [repeatsFrom_nil]
  | cons a rest ih =>
    rw [List.cons_append, repeatsFrom_cons, repeatsFrom_cons, ih, List.append_assoc, List.map_cons,
      List.append_assoc, List.singleton_append]

theorem repeatsFrom_ne_nil_iff :
    repeatsFrom key known items ≠ [] ↔
      ∃ before a after, items = before ++ a :: after ∧ key a ∈ known ++ before.map key := by
  constructor
  · intro some_repeat
    obtain ⟨a, reported⟩ := List.exists_mem_of_ne_nil _ some_repeat
    obtain ⟨⟨_, place⟩, found, rfl⟩ := List.mem_map.1 reported
    obtain ⟨stands, held⟩ := List.mem_filter.1 found
    obtain ⟨within, rfl⟩ := List.getElem?_eq_some_iff.1 (List.mk_mem_zipIdx_iff_getElem?.1 stands)
    refine ⟨items.take place, items[place], items.drop (place + 1), ?_, by simpa using held⟩
    rw [List.getElem_cons_drop, List.take_append_drop]
  · rintro ⟨before, a, after, rfl, held⟩
    have stands : (a, before.length) ∈ (before ++ a :: after).zipIdx :=
      List.mk_mem_zipIdx_iff_getElem?.2 (by simp)
    refine List.ne_nil_of_mem (List.mem_map.2 ⟨_, List.mem_filter.2 ⟨stands, ?_⟩, rfl⟩)
    simpa using held

theorem repeatsFrom_map {β ν : Type} [DecidableEq ν] {make : β → α} {name : β → ν}
    {names : List ν} (told : ∀ a b, key (make a) = key (make b) ↔ name a = name b)
    (before : ∀ a, key (make a) ∈ known ↔ name a ∈ names) (items : List β) :
    repeatsFrom key known (items.map make) = (repeatsFrom name names items).map make := by
  induction items generalizing known names with
  | nil => rfl
  | cons a rest ih =>
    have grown : ∀ b, key (make b) ∈ known ++ [key (make a)] ↔ name b ∈ names ++ [name a] := by
      intro b
      simp only [List.mem_append, List.mem_singleton, before, told]
    rw [List.map_cons, repeatsFrom_cons, repeatsFrom_cons, ih grown, List.map_append]
    simp only [before]
    split <;> rfl

theorem count_repeatsFrom (k : κ) (known : List κ) (items : List α) :
    ((repeatsFrom key known items).map key).count k =
      (items.map key).count k - if k ∈ known then 0 else 1 := by
  induction items generalizing known with
  | nil => simp [repeatsFrom_nil]
  | cons a rest ih =>
    rw [repeatsFrom_cons, List.map_append, List.count_append, ih, List.map_cons, List.count_cons]
    by_cases same : key a = k
    · subst same
      by_cases held : key a ∈ known
      · simp [held, Nat.add_comm]
      · simp [held]
    · have other : k ≠ key a := fun turned => same turned.symm
      by_cases held : key a ∈ known <;> simp [held, same, other]

end Repeats

namespace NamedList

variable {α : Type} [Named α]

theorem names_push {list : NamedList α} {item : α}
    (fresh : Named.qualifiedName item ∉ list.names) :
    (list.push item fresh).names = list.names ++ [Named.qualifiedName item] := by
  rw [names, items_push, List.map_append, names, List.map_singleton]

theorem mem_names_stage {list : NamedList α} {items : List α} {name : QualifiedName} :
    name ∈ (list.stage items).1.names ↔
      name ∈ list.names ++ items.map Named.qualifiedName := by
  induction items generalizing list with
  | nil => simp
  | cons item rest ih =>
    by_cases fresh : Named.qualifiedName item ∉ list.names
    · rw [stage, dif_pos fresh, ih, names_push, List.append_assoc, List.map_cons,
        List.singleton_append]
    · have held : Named.qualifiedName item ∈ list.names := not_not.1 fresh
      rw [stage, dif_neg fresh, ih, List.map_cons, List.mem_append, List.mem_append, List.mem_cons]
      constructor
      · exact Or.imp_right .inr
      · rintro (known | rfl | later)
        · exact .inl known
        · exact .inl held
        · exact .inr later

/-- A name is left out where it repeats one before. -/
theorem stage_eq_repeatsFrom (list : NamedList α) (items : List α) :
    (list.stage items).2 =
      (repeatsFrom Named.qualifiedName list.names items).map Named.qualifiedName := by
  induction items generalizing list with
  | nil => rfl
  | cons item rest ih =>
    rw [repeatsFrom_cons]
    by_cases fresh : Named.qualifiedName item ∉ list.names
    · rw [stage, dif_pos fresh, ih, names_push, if_neg fresh, List.nil_append]
    · have held : Named.qualifiedName item ∈ list.names := not_not.1 fresh
      have same : ∀ name, name ∈ list.names ↔ name ∈ list.names ++ [Named.qualifiedName item] := by
        simp [held]
      rw [stage, dif_neg fresh, if_pos held, ← repeatsFrom_congr same]
      exact congrArg (Named.qualifiedName item :: ·) (ih list)

theorem count_stage (list : NamedList α) (items : List α) (name : QualifiedName) :
    (list.stage items).2.count name =
      (list.names ++ items.map Named.qualifiedName).count name - 1 := by
  have once : list.names.count name = if name ∈ list.names then 1 else 0 := list.nodup.count
  rw [stage_eq_repeatsFrom, count_repeatsFrom, List.count_append, once]
  split <;> omega

theorem stage_append (list : NamedList α) (first second : List α) :
    list.stage (first ++ second) =
      (((list.stage first).1.stage second).1,
        (list.stage first).2 ++ ((list.stage first).1.stage second).2) := by
  induction first generalizing list with
  | nil => rfl
  | cons item rest ih =>
    by_cases fresh : Named.qualifiedName item ∉ list.names
    · simp only [List.cons_append, stage, dif_pos fresh, ih]
    · simp only [List.cons_append, stage, dif_neg fresh, ih]

theorem perm_stage {list : NamedList α} {first second : List α} (same : first.Perm second) :
    (list.stage first).2.Perm (list.stage second).2 := by
  rw [List.perm_iff_count]
  intro name
  rw [count_stage, count_stage, List.count_append, List.count_append,
    (same.map Named.qualifiedName).count_eq]

end NamedList

namespace Catalog

variable {catalog : Catalog} {collection : Collection} {collections : List Collection}

def leftOut (catalog : Catalog) (collections : List Collection) : List Duplicate :=
  (catalog.enums.stage (collections.flatMap (·.enums))).2.map (⟨.enum, ·⟩) ++
    (catalog.composites.stage (collections.flatMap (·.composites))).2.map (⟨.composite, ·⟩) ++
    (catalog.tables.stage (collections.flatMap (·.tables))).2.map (⟨.table, ·⟩)

theorem filter_category (kind category : ObjectKind) (names : List QualifiedName) :
    (names.map (Duplicate.mk category)).filter (·.category == kind) =
      if category = kind then names.map (Duplicate.mk category) else [] := by
  rw [List.filter_map]
  split
  · next same => simp [Function.comp_def, same]
  · next apart => simp [Function.comp_def, apart]

/-- In each category a batch leaves out what its definitions of that category, taken together,
repeat. -/
theorem filter_stage (catalog : Catalog) (collections : List Collection) (kind : ObjectKind) :
    (catalog.stage collections).2.filter (·.category == kind) =
      (catalog.leftOut collections).filter (·.category == kind) := by
  induction collections generalizing catalog with
  | nil => rfl
  | cons collection rest ih =>
    have later := ih (catalog.stageCollection collection).1
    simp only [leftOut, stageCollection, List.filter_append, filter_category] at later
    simp only [stage, leftOut, stageCollection, List.flatMap_cons, NamedList.stage_append,
      List.map_append, List.filter_append, filter_category, later]
    cases kind <;> simp

theorem perm_leftOut (catalog : Catalog) (collections : List Collection) :
    (catalog.stage collections).2.Perm (catalog.leftOut collections) := by
  rw [List.perm_iff_count]
  intro duplicate
  let own : Duplicate → Bool := (·.category == duplicate.category)
  have counted : own duplicate = true := beq_self_eq_true _
  rw [← List.count_filter counted, filter_stage, List.count_filter counted]

theorem merge_eq_error_iff {duplicates : List Duplicate} :
    catalog.merge collections = .error duplicates ↔
      (catalog.stage collections).2 = duplicates ∧ duplicates ≠ [] := by
  unfold merge
  cases staged : catalog.stage collections with
  | mk result found =>
    cases found with
    | nil => simp
    | cons duplicate rest =>
      simp only [Except.error.injEq]
      refine ⟨fun same => ⟨same, same ▸ List.cons_ne_nil _ _⟩, And.left⟩

end Catalog

end SchemaScript
