import SchemaScript.Proofs.AllOrNothing

/-!
Histories of a session. Definitions are merged, loaded and dropped, runs start over, operations fail
and files change in between. The catalog afterwards holds what was merged with success since it was
last emptied, in the order in which it was merged, and nothing else.
-/

namespace SchemaScript

structure NamedList.Holds {α : Type} [Named α] (list : NamedList α) (definitions : List α) :
    Prop where
  listed : list.items = definitions
  once : (definitions.map Named.qualifiedName).Nodup
  keyed : ∀ name definition, list.find? name = some definition ↔
    definition ∈ definitions ∧ (Named.qualifiedName definition).text = name

theorem NamedList.holds_items {α : Type} [Named α] (list : NamedList α) :
    list.Holds list.items where
  listed := rfl
  once := list.nodup
  keyed _ _ := find?_eq_some_iff

namespace Catalog

/-- The schemas that definitions of some collections mention: those of all enumerations, then those
of all composite types, then those of all tables. -/
def schemaMentions (collections : List Collection) : List Identifier :=
  (collections.flatMap (·.enums)).map (·.schema) ++
    (collections.flatMap (·.composites)).map (·.schema) ++
    (collections.flatMap (·.tables)).map (·.schema)

/-- A catalog holds the definitions of some collections, and the schemas that they mention. -/
structure Holds (catalog : Catalog) (collections : List Collection) : Prop where
  enums : catalog.enums.Holds (collections.flatMap (·.enums))
  composites : catalog.composites.Holds (collections.flatMap (·.composites))
  tables : catalog.tables.Holds (collections.flatMap (·.tables))
  schemas : catalog.schemas = (schemaMentions collections).eraseDups
  schemas_once : catalog.schemas.Nodup

variable {catalog merged : Catalog} {collections more : List Collection}

theorem holds_of_extends (extended : Extends empty catalog collections)
    (inferred : catalog.schemas = catalog.mentionedSchemas) : catalog.Holds collections := by
  have enums : catalog.enums.items = collections.flatMap (·.enums) := extended.enums
  have composites : catalog.composites.items = collections.flatMap (·.composites) :=
    extended.composites
  have tables : catalog.tables.items = collections.flatMap (·.tables) := extended.tables
  have schemas : catalog.schemas = (schemaMentions collections).eraseDups := by
    rw [inferred, mentionedSchemas_eq_eraseDups, headings, schemaMentions, ← enums, ← composites,
      ← tables]
    simp only [List.map_append, List.map_map, Function.comp_def]
  constructor
  · exact enums ▸ catalog.enums.holds_items
  · exact composites ▸ catalog.composites.holds_items
  · exact tables ▸ catalog.tables.holds_items
  · exact schemas
  · rw [schemas]
    exact nodup_eraseDups _

theorem Holds.extends_empty (held : catalog.Holds collections) :
    Extends empty catalog collections :=
  ⟨held.enums.listed, held.composites.listed, held.tables.listed⟩

theorem holds_empty : empty.Holds [] := holds_of_extends (Extends.refl empty) rfl

theorem Holds.merge (held : catalog.Holds collections) (h : catalog.merge more = .ok merged) :
    merged.Holds (collections ++ more) :=
  holds_of_extends (held.extends_empty.trans (extends_merge h)) (schemas_merge h)

end Catalog

theorem Settings.catalog_cases (settings : Settings) (tree : FileTree) (workplace : Location) :
    (∃ obstacle, settings.catalog tree workplace = .error obstacle) ∨
      ∃ collections catalog, settings.definitions tree workplace = .ok collections ∧
        Catalog.empty.merge collections = .ok catalog ∧
        settings.catalog tree workplace = .ok catalog := by
  cases read : settings.definitions tree workplace with
  | error obstacle =>
    refine Or.inl ⟨obstacle, ?_⟩
    rw [catalog, read]
    rfl
  | ok collections =>
    have same : settings.catalog tree workplace = mergeAll collections := by
      rw [catalog, read]
      rfl
    rw [same, mergeAll]
    cases accepted : Catalog.empty.merge collections with
    | error duplicates => exact Or.inl ⟨.failure (.duplicates duplicates), rfl⟩
    | ok catalog => exact Or.inr ⟨collections, catalog, rfl, accepted, rfl⟩

@[simp] theorem catalog_deliver (settings : Settings) (tree : FileTree) (workplace : Location)
    (catalog : Catalog) (report : Report) :
    (deliver settings tree workplace catalog report).catalog = catalog := by
  unfold deliver
  cases settings.outputPath with
  | error fault => rfl
  | ok path =>
    simp only
    split <;> rfl

theorem catalog_generate (settings : Settings) (filter : NameFilter) (dryRun : Bool)
    (tree : FileTree) (workplace : Location) :
    (generate settings filter dryRun tree workplace).catalog =
      (settings.catalog tree workplace).toOption.getD .empty := by
  unfold generate
  cases settings.catalog tree workplace with
  | error obstacle => cases obstacle <;> rfl
  | ok catalog =>
    simp only [Except.toOption, Option.getD_some]
    cases Emission.ofCatalog catalog filter with
    | error cycle => rfl
    | ok emission => cases dryRun <;> simp

namespace Session

inductive Operation
  | merge (collections : List Collection)
  | clear
  | load (directory : String) (recursive : Bool)
  | generate (settings : Settings) (filter : NameFilter) (dryRun : Bool)
  | edit (tree : FileTree)

def perform (session : Session) : Operation → Session
  | .merge collections => (session.merge collections).1
  | .clear => session.clear
  | .load directory recursive => (session.loadDefinitions directory recursive).1
  | .generate settings filter dryRun => (session.generate settings filter dryRun).1
  | .edit tree => { session with tree }

def merged (session : Session) : Operation → List Collection
  | .merge collections => if (session.merge collections).2.isOk then collections else []
  | .load directory recursive =>
    match (session.loadDefinitions directory recursive).2,
      session.loading directory ⟨recursive, false, session.workers⟩ with
    | .ok true, .ok loading => loading.collections
    | _, _ => []
  | .generate settings _ _ =>
    match settings.catalog session.tree session.workplace,
      settings.definitions session.tree session.workplace with
    | .ok _, .ok collections => collections
    | _, _ => []
  | .clear => []
  | .edit _ => []

def Operation.startsOver : Operation → Bool
  | .clear => true
  | .generate _ _ _ => true
  | _ => false

/-- What has been merged with success since the last start, operation after operation. -/
def standing (session : Session) (before : List Collection) (operation : Operation) :
    List Collection :=
  (if operation.startsOver then [] else before) ++ session.merged operation

def after (session : Session) : List Operation → Session
  | [] => session
  | operation :: rest => (session.perform operation).after rest

def standingAfter (session : Session) (before : List Collection) :
    List Operation → List Collection
  | [] => before
  | operation :: rest =>
    (session.perform operation).standingAfter (session.standing before operation) rest

variable {session : Session} {collections : List Collection}

theorem holds_generate (settings : Settings) (filter : NameFilter) (dryRun : Bool) :
    (session.perform (.generate settings filter dryRun)).catalog.Holds
      (session.merged (.generate settings filter dryRun)) := by
  simp only [perform, generate, merged, catalog_generate]
  rcases settings.catalog_cases session.tree session.workplace with
    ⟨obstacle, failed⟩ | ⟨collections, catalog, read, accepted, done⟩
  · rw [failed]
    exact Catalog.holds_empty
  · rw [done, read]
    exact Catalog.holds_empty.merge accepted

theorem holds_perform (held : session.catalog.Holds collections) (operation : Operation) :
    (session.perform operation).catalog.Holds (session.standing collections operation) := by
  cases operation with
  | merge more =>
    simp only [perform, standing, merged, Operation.startsOver]
    rcases session.merge_cases more with ⟨duplicates, refused⟩ | ⟨catalog, accepted, done⟩
    · rw [refused]
      simpa [Except.isOk, Except.toBool] using held
    · rw [done]
      simpa [Except.isOk, Except.toBool] using held.merge accepted
  | clear => exact Catalog.holds_empty
  | load directory recursive =>
    simp only [perform, standing, merged, Operation.startsOver]
    rcases session.loadDefinitions_cases directory recursive with
      ⟨outcome, failed, unchanged⟩ | ⟨loading, catalog, loaded, accepted, done⟩
    · rw [unchanged]
      simpa [failed] using held
    · rw [done, loaded]
      simpa using held.merge accepted
  | generate settings filter dryRun =>
    simpa [standing, Operation.startsOver] using holds_generate settings filter dryRun
  | edit tree => simpa [perform, standing, merged, Operation.startsOver] using held

theorem holds_after (held : session.catalog.Holds collections) (operations : List Operation) :
    (session.after operations).catalog.Holds (session.standingAfter collections operations) := by
  induction operations generalizing session collections with
  | nil => exact held
  | cons operation rest ih => exact ih (holds_perform held operation)

/-- After any operations on a fresh session, its catalog holds just what they have merged with
success since the last start. -/
theorem holds_standing (tree : FileTree) (workplace : Location) (workers : Option Int)
    (operations : List Operation) :
    let fresh : Session := ⟨.empty, tree, workplace, workers⟩
    (fresh.after operations).catalog.Holds (fresh.standingAfter [] operations) :=
  holds_after Catalog.holds_empty operations

end Session

end SchemaScript
