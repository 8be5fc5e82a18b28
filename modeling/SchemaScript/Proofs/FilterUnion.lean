import SchemaScript.Proofs.Cycles
import SchemaScript.Proofs.Inventory

/-!
Filters taken together. What either of two filters accepts is asked for by the one or by the other,
along with all that it leads to. So there is a script for both together exactly if there is one for
each, and it creates what the two create between them, although the sections in which it does so
may be others.
-/

namespace SchemaScript

def eitherFilter (first second : NameFilter) : NameFilter := fun name => first name || second name

theorem eitherFilter_eq_true_iff {first second : NameFilter} {name : String} :
    eitherFilter first second name = true ↔ first name = true ∨ second name = true :=
  Bool.or_eq_true_iff

theorem eitherFilter_eq_right {first second : NameFilter}
    (larger : ∀ name, first name = true → second name = true) :
    eitherFilter first second = second := by
  funext name
  rw [eitherFilter, Bool.or_eq_right_iff_imp]
  exact larger name

theorem exists_globFilter? {patterns : List String} (given : patterns ≠ []) :
    ∃ filter, globFilter? patterns = some filter := by
  rw [globFilter?, if_neg (by simpa using given)]
  exact ⟨_, rfl⟩

theorem globFilter?_append {patterns more : List String} {first second : NameFilter}
    (one : globFilter? patterns = some first) (two : globFilter? more = some second) :
    globFilter? (patterns ++ more) = some (eitherFilter first second) := by
  unfold globFilter? at one two ⊢
  split at one
  · cases one
  · next given =>
    split at two
    · cases two
    · cases one
      cases two
      rw [if_neg (by simp_all)]
      congr 1
      funext name
      exact List.any_append

namespace Catalog

variable {catalog : Catalog} {first second : NameFilter} {object : SqlObject}

theorem Selected.mono (selected : catalog.Selected first object)
    (larger : ∀ name, first name = true → second name = true) :
    catalog.Selected second object := by
  cases selected with
  | schema listed => exact .schema listed
  | enum listed accepted => exact .enum listed (larger _ accepted)
  | composite listed accepted reaches => exact .composite listed (larger _ accepted) reaches
  | table listed accepted reaches => exact .table listed (larger _ accepted) reaches

theorem selected_either_iff :
    catalog.Selected (eitherFilter first second) object ↔
      catalog.Selected first object ∨ catalog.Selected second object := by
  constructor
  · intro selected
    cases selected with
    | schema listed => exact .inl (.schema listed)
    | enum listed accepted =>
      exact (eitherFilter_eq_true_iff.1 accepted).imp (.enum listed) (.enum listed)
    | composite listed accepted reaches =>
      exact (eitherFilter_eq_true_iff.1 accepted).imp (.composite listed · reaches)
        (.composite listed · reaches)
    | table listed accepted reaches =>
      exact (eitherFilter_eq_true_iff.1 accepted).imp (.table listed · reaches)
        (.table listed · reaches)
  · rintro (selected | selected)
    · exact selected.mono fun name accepted => eitherFilter_eq_true_iff.2 (.inl accepted)
    · exact selected.mono fun name accepted => eitherFilter_eq_true_iff.2 (.inr accepted)

theorem AcyclicUnder.anti (acyclic : catalog.AcyclicUnder second)
    (larger : ∀ name, first name = true → second name = true) : catalog.AcyclicUnder first where
  composites definition listed accepted := acyclic.composites definition listed (larger _ accepted)
  tables definition listed accepted := acyclic.tables definition listed (larger _ accepted)

theorem acyclicUnder_either_iff :
    catalog.AcyclicUnder (eitherFilter first second) ↔
      catalog.AcyclicUnder first ∧ catalog.AcyclicUnder second := by
  constructor
  · intro acyclic
    exact ⟨acyclic.anti fun name accepted => eitherFilter_eq_true_iff.2 (.inl accepted),
      acyclic.anti fun name accepted => eitherFilter_eq_true_iff.2 (.inr accepted)⟩
  · rintro ⟨one, two⟩
    constructor
    · intro definition listed accepted
      exact (eitherFilter_eq_true_iff.1 accepted).elim (one.composites definition listed)
        (two.composites definition listed)
    · intro definition listed accepted
      exact (eitherFilter_eq_true_iff.1 accepted).elim (one.tables definition listed)
        (two.tables definition listed)

end Catalog

namespace Emission

variable {catalog : Catalog} {filter both first second : NameFilter}
  {emission smaller larger : Emission}

/-- A script for one filter creates what the scripts for two others create between them. -/
structure Unites (catalog : Catalog) (both first second : NameFilter) : Prop where
  builds : (∃ emission, ofCatalog catalog both = .ok emission) ↔
    (∃ emission, ofCatalog catalog first = .ok emission) ∧
      ∃ emission, ofCatalog catalog second = .ok emission
  keys : ∀ emission one two, ofCatalog catalog both = .ok emission →
    ofCatalog catalog first = .ok one → ofCatalog catalog second = .ok two →
    ∀ key, key ∈ emission.objects.map (·.key) ↔
      key ∈ one.objects.map (·.key) ∨ key ∈ two.objects.map (·.key)

theorem mem_keys_iff_selected (reachable : catalog.Reachable)
    (built : ofCatalog catalog filter = .ok emission) {key : ObjectKey} :
    key ∈ emission.objects.map (·.key) ↔
      ∃ object, catalog.Selected filter object ∧ object.key = key := by
  simp only [List.mem_map, mem_objects_iff_selected reachable built]

theorem unites_either (reachable : catalog.Reachable) (first second : NameFilter) :
    Unites catalog (eitherFilter first second) first second where
  builds := by
    simp only [exists_ofCatalog_iff, Catalog.acyclicUnder_either_iff]
  keys emission one two built builtOne builtTwo key := by
    simp only [mem_keys_iff_selected reachable built, mem_keys_iff_selected reachable builtOne,
      mem_keys_iff_selected reachable builtTwo, Catalog.selected_either_iff, or_and_right,
      exists_or]

/-- A filter that accepts more makes a script with more, or none at all. -/
theorem exists_smaller (reachable : catalog.Reachable)
    (accepted : ∀ name, first name = true → second name = true)
    (built : ofCatalog catalog second = .ok larger) :
    ∃ smaller, ofCatalog catalog first = .ok smaller ∧
      smaller.objects.map (·.key) ⊆ larger.objects.map (·.key) := by
  have united := unites_either reachable first second
  rw [eitherFilter_eq_right accepted] at united
  obtain ⟨smaller, builtSmaller⟩ := (united.builds.1 ⟨larger, built⟩).1
  refine ⟨smaller, builtSmaller, fun key created => ?_⟩
  exact (united.keys larger smaller larger built builtSmaller built key).2 (.inl created)

/-- Scripts follow their filters: what is accepted by one or the other is created by one or the
other, in particular for patterns. -/
theorem filters_distribute (reachable : catalog.Reachable) :
    (∀ first second, Unites catalog (eitherFilter first second) first second) ∧
    (∀ first second : NameFilter, (∀ name, first name = true → second name = true) →
      ∀ larger, ofCatalog catalog second = .ok larger →
        ∃ smaller, ofCatalog catalog first = .ok smaller ∧
          smaller.objects.map (·.key) ⊆ larger.objects.map (·.key)) ∧
    ∀ patterns more : List String, patterns ≠ [] → more ≠ [] →
      ∃ both first second, globFilter? (patterns ++ more) = some both ∧
        globFilter? patterns = some first ∧ globFilter? more = some second ∧
        Unites catalog both first second := by
  refine ⟨unites_either reachable, fun _ _ accepted _ built => ?_, ?_⟩
  · exact exists_smaller reachable accepted built
  · intro patterns more given givenMore
    obtain ⟨first, one⟩ := exists_globFilter? given
    obtain ⟨second, two⟩ := exists_globFilter? givenMore
    exact ⟨_, first, second, globFilter?_append one two, one, two,
      unites_either reachable first second⟩

end Emission

namespace Sample

theorem filters_distribute_catalog :
    catalog.Reachable ∧
    Emission.Unites catalog (eitherFilter onlyOrders acceptAll) onlyOrders acceptAll ∧
    (∃ smaller, Emission.ofCatalog catalog onlyOrders = .ok smaller ∧
      smaller.objects.map (·.key) ⊆ completeScript.objects.map (·.key)) ∧
    ∃ both first second, globFilter? (["sales.o*"] ++ ["*.color"]) = some both ∧
      globFilter? ["sales.o*"] = some first ∧ globFilter? ["*.color"] = some second ∧
      Emission.Unites catalog both first second := by
  obtain ⟨united, grows, patterns⟩ := Emission.filters_distribute reachable
  refine ⟨reachable, united onlyOrders acceptAll, ?_, ?_⟩
  · exact grows onlyOrders acceptAll (fun _ _ => rfl) completeScript completeScript_built
  · exact patterns ["sales.o*"] ["*.color"] (List.cons_ne_nil _ _) (List.cons_ne_nil _ _)

end Sample

end SchemaScript
