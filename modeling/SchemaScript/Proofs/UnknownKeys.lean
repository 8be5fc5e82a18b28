import SchemaScript.Proofs.Accepting

/-!
Unknown keys. Wherever a mapping stands in a document, a key that is none of its fields makes the
document faulty, with one exception: entries of the document itself that have no value are taken out
before its keys are looked at, whatever these are.
-/

namespace SchemaScript

open Checked

namespace Part

def keys : Part → List String
  | .column => columnKeys
  | .options => ["unlogged"]
  | .enum => ["schema", "schema_", "name", "comment", "items"]
  | .composite => ["schema", "schema_", "name", "comment", "columns"]
  | .table => ["schema", "schema_", "name", "comment", "options", "columns"]
  | .collection => ["tables", "composites", "enums"]

def Unknown (part : Part) (key : Value) : Prop := ∀ name ∈ part.keys, key ≠ .text name

def lists : Part → List (String × Part)
  | .collection => [("tables", .table), ("composites", .composite), ("enums", .enum)]
  | .composite => [("columns", .column)]
  | .table => [("columns", .column)]
  | _ => []

def mappings : Part → List (String × Part)
  | .table => [("options", .options)]
  | _ => []

def Accepts : Part → Value → Prop
  | .column, value => (checkColumn value).Accepts
  | .options, value => (checkOptions value).Accepts
  | .enum, value => (checkEnum value).Accepts
  | .composite, value => (checkComposite value).Accepts
  | .table, value => (checkTable value).Accepts
  | .collection, value => (checkCollection value).Accepts

end Part

/-- The values of a document that stand where a definition or a part of one is looked for. -/
inductive Occurs (document : Value) : Part → Value → Prop
  | document : Occurs document .collection document
  | item {part inner : Part} {name : String} {entries : List (Value × Value)} {value : Value}
      {items : List Value} {item : Value} (outer : Occurs document part (.mapping entries))
      (listed : (name, inner) ∈ part.lists) (found : Value.field? entries name = some value)
      (list : items? value = some items) (member : item ∈ items) : Occurs document inner item
  | field {part inner : Part} {name : String} {entries : List (Value × Value)} {value : Value}
      (outer : Occurs document part (.mapping entries)) (listed : (name, inner) ∈ part.mappings)
      (found : Value.field? entries name = some value) : Occurs document inner value

/-- An entry of a document without a value might as well not be there. -/
theorem checkCollection_null (before after : List (Value × Value)) (key : Value) :
    checkCollection (.mapping (before ++ (key, .null) :: after)) =
      checkCollection (.mapping (before ++ after)) := by
  simp [checkCollection, checkMapping, isNull, List.filter_append]

section

variable {part inner : Part} {name : String} {entries : List (Value × Value)} {value : Value}

theorem accepts_of_mem_list {α : Type} {check : Value → Checked α} {items : List Value}
    {item : Value} (accepts : (checkList check value).Accepts) (list : items? value = some items)
    (member : item ∈ items) : (check item).Accepts := by
  obtain ⟨_, same, each⟩ := accepts_checkList.1 accepts
  cases list.symm.trans same
  exact each item member

theorem accepts_of_mem_nonEmptyList {α : Type} {check : Value → Checked α} {items : List Value}
    {item : Value} (accepts : (checkNonEmptyList check value).Accepts)
    (list : items? value = some items) (member : item ∈ items) : (check item).Accepts := by
  obtain ⟨_, same, _, each⟩ := accepts_checkNonEmptyList.1 accepts
  cases list.symm.trans same
  exact each item member

theorem Part.Accepts.item {items : List Value} {item : Value}
    (accepts : part.Accepts (.mapping entries)) (listed : (name, inner) ∈ part.lists)
    (found : Value.field? entries name = some value) (list : items? value = some items)
    (member : item ∈ items) : inner.Accepts item := by
  cases part with
  | collection =>
    have given : isNull value = false := by
      cases value <;> first | rfl | cases list
    have kept : Value.field? (entries.filter fun entry => !isNull entry.2) name = some value :=
      Value.field?_filter found (by simp [given])
    simp only [Part.Accepts, checkCollection, checkMapping, accepts_withFaults, accepts_seq,
      accepts_map, accepts_optional] at accepts
    obtain ⟨⟨⟨tables, composites⟩, enums⟩, -⟩ := accepts
    simp only [lists, List.mem_cons, Prod.mk.injEq, List.not_mem_nil, or_false] at listed
    rcases listed with ⟨rfl, rfl⟩ | ⟨rfl, rfl⟩ | ⟨rfl, rfl⟩
    · exact accepts_of_mem_list (tables value kept) list member
    · exact accepts_of_mem_list (composites value kept) list member
    · exact accepts_of_mem_list (enums value kept) list member
  | composite =>
    have fields := Checked.Accepts.of_andThen accepts
    simp only [accepts_withFaults, accepts_seq, accepts_map, accepts_optional] at fields
    cases List.mem_singleton.1 listed
    exact accepts_of_mem_list (fields.1.2 value found) list member
  | table =>
    have fields := Checked.Accepts.of_andThen accepts
    simp only [accepts_withFaults, accepts_seq, accepts_map, accepts_required] at fields
    obtain ⟨⟨-, _, same, columns⟩, -⟩ := fields
    cases List.mem_singleton.1 listed
    cases found.symm.trans same
    exact accepts_of_mem_nonEmptyList columns list member
  | _ => cases listed

theorem Part.Accepts.field (accepts : part.Accepts (.mapping entries))
    (listed : (name, inner) ∈ part.mappings) (found : Value.field? entries name = some value) :
    inner.Accepts value := by
  cases part with
  | table =>
    have fields := Checked.Accepts.of_andThen accepts
    simp only [accepts_withFaults, accepts_seq, accepts_map, accepts_optional] at fields
    cases List.mem_singleton.1 listed
    exact fields.1.1.2 value found
  | _ => cases listed

theorem Part.Accepts.of_occurs {document : Value} (occurs : Occurs document part value)
    (accepts : (checkCollection document).Accepts) : part.Accepts value := by
  induction occurs with
  | document => exact accepts
  | item outer listed found list member ih => exact ih.item listed found list member
  | field outer listed found ih => exact ih.field listed found

end

theorem headingKeys_subset (entries : List (Value × Value)) (more : List String) :
    headingKeys entries ++ more ⊆ ["schema", "schema_", "name", "comment"] ++ more := by
  unfold headingKeys schemaKey
  refine List.append_subset.2 ⟨?_, List.subset_append_right _ _⟩
  split
  · simp
  · simp

theorem Part.Accepts.onlyKeys {part : Part} {entries : List (Value × Value)}
    (accepts : part.Accepts (.mapping entries)) (inside : part ≠ .collection) :
    OnlyKeys part.keys entries := by
  cases part with
  | collection => exact absurd rfl inside
  | column => exact unknownKeys_eq_nil.1 (accepts_withFaults.1 accepts).2
  | options => exact unknownKeys_eq_nil.1 (accepts_withFaults.1 accepts).2
  | enum =>
    have only := unknownKeys_eq_nil.1 (accepts_withFaults.1 accepts).2
    exact only.mono (headingKeys_subset entries _)
  | composite =>
    have only := unknownKeys_eq_nil.1 (accepts_withFaults.1 accepts.of_andThen).2
    exact only.mono (headingKeys_subset entries _)
  | table =>
    have only := unknownKeys_eq_nil.1 (accepts_withFaults.1 accepts.of_andThen).2
    exact only.mono (headingKeys_subset entries _)

theorem onlyKeys_of_accepts_collection {entries : List (Value × Value)}
    (accepts : (checkCollection (.mapping entries)).Accepts) :
    OnlyKeys Part.collection.keys (entries.filter fun entry => !isNull entry.2) :=
  unknownKeys_eq_nil.1 (accepts_withFaults.1 accepts).2

theorem isNull_eq_false {value : Value} (given : value ≠ .null) : isNull value = false := by
  cases value with
  | null => exact absurd rfl given
  | _ => rfl

theorem Part.Accepts.not_unknown {part : Part} {entries : List (Value × Value)}
    (accepts : part.Accepts (.mapping entries)) {entry : Value × Value} (member : entry ∈ entries)
    (given : part = .collection → entry.2 ≠ .null) : ¬ part.Unknown entry.1 := by
  intro unknown
  by_cases outermost : part = .collection
  · subst outermost
    have kept : entry ∈ entries.filter fun entry => !isNull entry.2 :=
      List.mem_filter.2 ⟨member, by simp [isNull_eq_false (given rfl)]⟩
    obtain ⟨name, listed, same⟩ := onlyKeys_of_accepts_collection accepts entry kept
    exact unknown name listed same
  · obtain ⟨name, listed, same⟩ := accepts.onlyKeys outermost entry member
    exact unknown name listed same

/-- An unknown key of any mapping in a document makes it faulty, unless the key is one of the
document itself and has no value. Then it makes no difference. -/
structure RefusesUnknownKeys (document : Value) : Prop where
  refused : ∀ part entries, Occurs document part (.mapping entries) →
    ∀ entry ∈ entries, part.Unknown entry.1 → (part = .collection → entry.2 ≠ .null) →
      ¬ (checkCollection document).Accepts
  overlooked : ∀ before key after, document = .mapping (before ++ (key, .null) :: after) →
    checkCollection document = checkCollection (.mapping (before ++ after))

theorem refusesUnknownKeys (document : Value) : RefusesUnknownKeys document where
  refused _ _ occurs _ member unknown given accepts :=
    (Part.Accepts.of_occurs occurs accepts).not_unknown member given unknown
  overlooked before key after same := same ▸ checkCollection_null before after key

namespace Sample

theorem overlooks_misspelt_section :
    Part.collection.Unknown (.text "tabels") ∧
      (checkCollection (.mapping [(.text "tabels", .null)])).Accepts :=
  ⟨by simp [Part.Unknown, Part.keys], Collection.empty, rfl⟩

end Sample

end SchemaScript
