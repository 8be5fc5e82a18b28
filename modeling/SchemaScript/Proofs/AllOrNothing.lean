import SchemaScript.Proofs.Merge
import SchemaScript.Session

/-!
Adding definitions to a session. Whatever prevents it leaves the catalog as it was: a name that is
defined twice, however late in the batch, a document at fault, or a directory that cannot be read.
Otherwise all definitions of the batch come behind those that were there.
-/

namespace SchemaScript

namespace Session

theorem merge_cases (session : Session) (collections : List Collection) :
    (∃ duplicates, session.merge collections = (session, .error duplicates)) ∨
      ∃ catalog, session.catalog.merge collections = .ok catalog ∧
        session.merge collections = ({ session with catalog }, .ok ()) := by
  unfold merge
  cases session.catalog.merge collections with
  | error duplicates => exact Or.inl ⟨duplicates, rfl⟩
  | ok catalog => exact Or.inr ⟨catalog, rfl, rfl⟩

/-- A directory is taken over as a whole, or not at all. -/
theorem loadDefinitions_cases (session : Session) (directory : String) (recursive : Bool) :
    (∃ outcome, outcome ≠ .ok true ∧
      session.loadDefinitions directory recursive = (session, outcome)) ∨
      ∃ loading catalog,
        session.loading directory ⟨recursive, false, session.workers⟩ = .ok loading ∧
        session.catalog.merge loading.collections = .ok catalog ∧
        session.loadDefinitions directory recursive = ({ session with catalog }, .ok true) := by
  unfold loadDefinitions
  split
  · exact Or.inl ⟨.error .noDirectoryGiven, nofun, rfl⟩
  · cases session.loading directory ⟨recursive, false, session.workers⟩ with
    | error failure => exact Or.inl ⟨.error failure, nofun, rfl⟩
    | ok loading =>
      cases success : loading.isSuccess with
      | false =>
        refine Or.inl ⟨.ok false, nofun, ?_⟩
        simp only [success, Bool.false_eq_true, ↓reduceIte]
      | true =>
        rcases session.merge_cases loading.collections with
          ⟨duplicates, refused⟩ | ⟨catalog, merged, done⟩
        · refine Or.inl ⟨.ok false, nofun, ?_⟩
          simp only [success, refused, ↓reduceIte]
        · refine Or.inr ⟨loading, catalog, rfl, merged, ?_⟩
          simp only [success, done, ↓reduceIte]

end Session

/-- Every category lists what it listed before and then all definitions of some collections, and
every name stands for what it stood for. -/
structure Catalog.AddsAll (before after : Catalog) (collections : List Collection) : Prop where
  listed : Catalog.Extends before after collections
  kept : ∀ kind name object, before.find? kind name = some object →
    after.find? kind name = some object

theorem Catalog.addsAll_merge {before after : Catalog} {collections : List Collection}
    (merged : before.merge collections = .ok after) : AddsAll before after collections where
  listed := extends_merge merged
  kept _ _ _ found := (extends_merge merged).find?_of_find? found

theorem Session.all_or_nothing (session : Session) (collections : List Collection)
    (directory : String) (recursive : Bool) :
    (match session.merge collections with
      | (after, .error _) => after.catalog = session.catalog
      | (after, .ok ()) => session.catalog.AddsAll after.catalog collections) ∧
    (match session.loadDefinitions directory recursive with
      | (after, .ok true) => ∃ loading,
        session.loading directory ⟨recursive, false, session.workers⟩ = .ok loading ∧
          session.catalog.AddsAll after.catalog loading.collections
      | (after, _) => after.catalog = session.catalog) := by
  constructor
  · rcases session.merge_cases collections with ⟨duplicates, refused⟩ | ⟨catalog, merged, done⟩
    · rw [refused]
    · rw [done]
      exact Catalog.addsAll_merge merged
  · rcases session.loadDefinitions_cases directory recursive with
      ⟨outcome, failed, unchanged⟩ | ⟨loading, catalog, loaded, merged, done⟩
    · rw [unchanged]
      cases outcome with
      | error failure => rfl
      | ok loaded =>
        cases loaded with
        | false => rfl
        | true => exact absurd rfl failed
    · rw [done]
      exact ⟨loading, loaded, Catalog.addsAll_merge merged⟩

end SchemaScript
