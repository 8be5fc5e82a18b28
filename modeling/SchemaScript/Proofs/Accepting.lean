import Mathlib.Data.List.Forall2
import SchemaScript.Definition.Check

/-!
What checks accept. A check of a whole definition accepts exactly where each check that it is made
of does; nothing is said here of the faults that are found otherwise.
-/

namespace SchemaScript

namespace Checked

variable {α β : Type}

def Accepts (x : Checked α) : Prop := ∃ value, x = .valid value

@[simp] theorem accepts_valid (value : α) : (valid value).Accepts := ⟨value, rfl⟩

@[simp] theorem not_accepts_fault (reason : Reason) : ¬ (fault reason : Checked α).Accepts := nofun

@[simp] theorem accepts_map {f : α → β} {x : Checked α} : (f <$> x).Accepts ↔ x.Accepts := by
  simp only [Accepts, map_eq_valid]
  exact ⟨fun ⟨_, a, found, _⟩ => ⟨a, found⟩, fun ⟨a, found⟩ => ⟨f a, a, found, rfl⟩⟩

@[simp] theorem accepts_seq {f : Checked (α → β)} {x : Checked α} :
    (f <*> x).Accepts ↔ f.Accepts ∧ x.Accepts := by
  simp only [Accepts, seq_eq_valid]
  exact ⟨fun ⟨_, g, a, first, second, _⟩ => ⟨⟨g, first⟩, a, second⟩,
    fun ⟨⟨g, first⟩, a, second⟩ => ⟨g a, g, a, first, second, rfl⟩⟩

@[simp] theorem accepts_within {part : String} {x : Checked α} :
    (x.within part).Accepts ↔ x.Accepts := by
  simp [Accepts]

@[simp] theorem accepts_withFaults {x : Checked α} {more : List Fault} :
    (x.withFaults more).Accepts ↔ x.Accepts ∧ more = [] := by
  simp [Accepts]

theorem accepts_andThen {x : Checked α} {f : α → Checked β} :
    (x.andThen f).Accepts ↔ ∃ value, x = .valid value ∧ (f value).Accepts := by
  simp only [Accepts, andThen_eq_valid]
  constructor
  · rintro ⟨b, a, found, next⟩
    exact ⟨a, found, b, next⟩
  · rintro ⟨a, found, b, next⟩
    exact ⟨b, a, found, next⟩

theorem Accepts.of_andThen {x : Checked α} {f : α → Checked β} (accepts : (x.andThen f).Accepts) :
    x.Accepts := by
  obtain ⟨value, found, _⟩ := accepts_andThen.1 accepts
  exact ⟨value, found⟩

end Checked

namespace Value

variable {entries : List (Value × Value)} {name : String} {value : Value}

theorem mem_of_field? (found : field? entries name = some value) :
    (.text name, value) ∈ entries := by
  fun_induction field? entries name with
  | case1 => cases found
  | case2 =>
    cases found
    exact List.mem_cons_self
  | case3 key entry rest other ih => exact List.mem_cons_of_mem _ (ih found)
  | case4 entry rest other ih => exact List.mem_cons_of_mem _ (ih found)

theorem field?_filter {keep : Value × Value → Bool} (found : field? entries name = some value)
    (kept : keep (.text name, value) = true) :
    field? (entries.filter keep) name = some value := by
  fun_induction field? entries name with
  | case1 => cases found
  | case2 first rest =>
    cases found
    rw [List.filter_cons_of_pos kept]
    simp [field?]
  | case3 key first rest other ih =>
    rw [List.filter_cons]
    split
    · simpa [field?, other] using ih found
    · exact ih found
  | case4 entry rest other ih =>
    rw [List.filter_cons]
    split
    · obtain ⟨key, first⟩ := entry
      cases key with
      | text key => exact absurd rfl (other key first)
      | _ => exact ih found
    · exact ih found

end Value

open Checked

variable {α : Type} {check : Value → Checked α} {entries : List (Value × Value)} {name : String}

theorem checkMapping_eq_valid {part : Part} {value : Value} {a : α}
    {check : List (Value × Value) → Checked α} :
    checkMapping part value check = .valid a ↔
      ∃ entries, value = .mapping entries ∧ check entries = .valid a := by
  cases value <;> simp [checkMapping, fault]

theorem accepts_checkMapping {part : Part} {value : Value}
    {check : List (Value × Value) → Checked α} :
    (checkMapping part value check).Accepts ↔
      ∃ entries, value = .mapping entries ∧ (check entries).Accepts := by
  cases value <;> simp [checkMapping]

theorem required_eq_valid {a : α} :
    required entries name check = .valid a ↔
      ∃ value, Value.field? entries name = some value ∧ check value = .valid a := by
  unfold required
  cases Value.field? entries name <;> simp

theorem accepts_required :
    (required entries name check).Accepts ↔
      ∃ value, Value.field? entries name = some value ∧ (check value).Accepts := by
  simp only [Accepts, required_eq_valid]
  exact ⟨fun ⟨a, value, found, done⟩ => ⟨value, found, a, done⟩,
    fun ⟨value, found, a, done⟩ => ⟨a, value, found, done⟩⟩

theorem accepts_optional {default : α} :
    (optional entries name default check).Accepts ↔
      ∀ value, Value.field? entries name = some value → (check value).Accepts := by
  unfold optional
  cases Value.field? entries name <;> simp

def OnlyKeys (known : List String) (entries : List (Value × Value)) : Prop :=
  ∀ entry ∈ entries, ∃ name ∈ known, entry.1 = .text name

theorem OnlyKeys.mono {known more : List String} (only : OnlyKeys known entries)
    (within : known ⊆ more) : OnlyKeys more entries := fun entry member =>
  let ⟨name, listed, same⟩ := only entry member
  ⟨name, within listed, same⟩

theorem keyFault?_eq_none {known : List String} {key : Value} :
    keyFault? known key = none ↔ ∃ name ∈ known, key = .text name := by
  cases key <;> simp [keyFault?]

theorem unknownKeys_eq_nil {known : List String} :
    unknownKeys known entries = [] ↔ OnlyKeys known entries := by
  simp only [unknownKeys, List.filterMap_eq_nil_iff, keyFault?_eq_none, OnlyKeys]

theorem checkItems_eq_valid {index : Nat} {items : List Value} {values : List α} :
    checkItems check index items = .valid values ↔
      List.Forall₂ (fun item value => check item = .valid value) items values := by
  induction items generalizing index values with
  | nil => cases values <;> simp [checkItems]
  | cons item items ih =>
    simp only [checkItems, seq_eq_valid, map_eq_valid, within_eq_valid, ih,
      List.forall₂_cons_left_iff]
    constructor
    · rintro ⟨_, rest, ⟨first, done, rfl⟩, each, rfl⟩
      exact ⟨first, rest, done, each, rfl⟩
    · rintro ⟨first, rest, done, each, rfl⟩
      exact ⟨List.cons first, rest, ⟨first, done, rfl⟩, each, rfl⟩

theorem accepts_checkItems {index : Nat} {items : List Value} :
    (checkItems check index items).Accepts ↔ ∀ item ∈ items, (check item).Accepts := by
  induction items generalizing index with
  | nil => simp [checkItems]
  | cons item items ih => simp [checkItems, ih]

theorem checkList_eq_valid {value : Value} {values : List α} :
    checkList check value = .valid values ↔ ∃ items, items? value = some items ∧
      List.Forall₂ (fun item value => check item = .valid value) items values := by
  unfold checkList
  cases items? value with
  | none => simp [fault]
  | some items => simp [checkItems_eq_valid]

theorem accepts_checkList {value : Value} :
    (checkList check value).Accepts ↔
      ∃ items, items? value = some items ∧ ∀ item ∈ items, (check item).Accepts := by
  unfold checkList
  cases items? value with
  | none => simp
  | some items => simp [accepts_checkItems]

theorem checkNonEmptyList_eq_valid {value : Value} {values : { values : List α // values ≠ [] }} :
    checkNonEmptyList check value = .valid values ↔ checkList check value = .valid values.1 := by
  obtain ⟨values, filled⟩ := values
  simp only [checkNonEmptyList, andThen_eq_valid]
  constructor
  · rintro ⟨read, listed, taken⟩
    split at taken
    · cases taken
      exact listed
    · cases taken
  · intro listed
    exact ⟨values, listed, dif_pos filled⟩

theorem accepts_checkNonEmptyList {value : Value} :
    (checkNonEmptyList check value).Accepts ↔
      ∃ items, items? value = some items ∧ items ≠ [] ∧ ∀ item ∈ items, (check item).Accepts := by
  constructor
  · rintro ⟨⟨values, filled⟩, done⟩
    have listed := checkNonEmptyList_eq_valid.1 done
    obtain ⟨items, found, each⟩ := checkList_eq_valid.1 listed
    obtain ⟨_, same, accepted⟩ := accepts_checkList.1 ⟨values, listed⟩
    cases found.symm.trans same
    refine ⟨items, found, ?_, accepted⟩
    rintro rfl
    cases each
    exact filled rfl
  · rintro ⟨items, found, filled, accepted⟩
    obtain ⟨values, listed⟩ := accepts_checkList.2 ⟨items, found, accepted⟩
    obtain ⟨_, same, each⟩ := checkList_eq_valid.1 listed
    cases found.symm.trans same
    have some : values ≠ [] := by
      rintro rfl
      cases each
      exact filled rfl
    exact ⟨⟨values, some⟩, checkNonEmptyList_eq_valid.2 listed⟩

end SchemaScript
