import SchemaScript.Proofs.Documents
import SchemaScript.Proofs.History

/-!
Runs in the catalog of a session. A run empties the catalog, fills it with the definitions that its
settings lead to, and makes the script of what the catalog then holds. What was in it before has no
part in that, whatever happened to the session, and nothing of it is left, also where a run fails.
-/

namespace SchemaScript

namespace Session

variable {session : Session} {settings : Settings} {filter : NameFilter} {dryRun : Bool}

@[simp] theorem catalog_clear (session : Session) : session.clear.catalog = .empty := rfl

@[simp] theorem tree_clear (session : Session) : session.clear.tree = session.tree := rfl

@[simp] theorem workplace_clear (session : Session) :
    session.clear.workplace = session.workplace := rfl

def reload (session : Session) (settings : Settings) : Session × Except Obstacle Unit :=
  match settings.definitions session.clear.tree session.clear.workplace with
  | .error obstacle => (session.clear, .error obstacle)
  | .ok collections =>
    match session.clear.merge collections with
    | (merged, .error duplicates) => (merged, .error (.failure (.duplicates duplicates)))
    | (merged, .ok ()) => (merged, .ok ())

def emit (session : Session) (settings : Settings) (filter : NameFilter) (dryRun : Bool) :
    Session × Except Halt Report :=
  match Emission.ofCatalog session.catalog filter with
  | .error cycle => (session, .ok (.failed (.cycle cycle)))
  | .ok emission =>
    let report := Report.rendered emission settings
    if dryRun then (session, .ok report)
    else
      let run := deliver settings session.tree session.workplace session.catalog report
      ({ session with catalog := run.catalog, tree := run.tree }, run.outcome)

/-- A run that works in the catalog of its session from beginning to end. -/
def rerun (session : Session) (settings : Settings) (filter : NameFilter) (dryRun : Bool) :
    Session × Except Halt Report :=
  match session.reload settings with
  | (reloaded, .error (.halt halt)) => (reloaded, .error halt)
  | (reloaded, .error (.failure failure)) => (reloaded, .ok (.failed failure))
  | (reloaded, .ok ()) => reloaded.emit settings filter dryRun

theorem reload_cases (session : Session) (settings : Settings) :
    (∃ obstacle, settings.catalog session.tree session.workplace = .error obstacle ∧
      session.reload settings = (session.clear, .error obstacle)) ∨
    ∃ collections catalog, settings.definitions session.tree session.workplace = .ok collections ∧
      Catalog.empty.merge collections = .ok catalog ∧
      settings.catalog session.tree session.workplace = .ok catalog ∧
      session.reload settings = ({ session with catalog }, .ok ()) := by
  unfold Settings.catalog reload
  rw [tree_clear, workplace_clear]
  cases settings.definitions session.tree session.workplace with
  | error obstacle => exact .inl ⟨obstacle, rfl, rfl⟩
  | ok collections =>
    simp only [bind, Except.bind, mergeAll, merge, catalog_clear]
    cases merged : Catalog.empty.merge collections with
    | error duplicates => exact .inl ⟨_, rfl, rfl⟩
    | ok catalog => exact .inr ⟨collections, catalog, rfl, merged, rfl, rfl⟩

/-- A run makes no other use of the catalog of its session. -/
theorem generate_eq_rerun (session : Session) (settings : Settings) (filter : NameFilter)
    (dryRun : Bool) :
    session.generate settings filter dryRun = session.rerun settings filter dryRun := by
  unfold generate SchemaScript.generate rerun
  rcases session.reload_cases settings with
    ⟨obstacle, failed, reloaded⟩ | ⟨collections, catalog, _, _, made, reloaded⟩
  · rw [failed, reloaded]
    cases obstacle <;> rfl
  · simp only [made, reloaded, emit]
    cases Emission.ofCatalog catalog filter with
    | error cycle => rfl
    | ok emission => cases dryRun <;> rfl

theorem workplace_perform (session : Session) (operation : Operation) :
    (session.perform operation).workplace = session.workplace := by
  cases operation with
  | merge collections =>
    rcases session.merge_cases collections with ⟨duplicates, refused⟩ | ⟨catalog, _, done⟩
    · rw [perform, refused]
    · rw [perform, done]
  | clear => rfl
  | load directory recursive =>
    rcases session.loadDefinitions_cases directory recursive with
      ⟨outcome, _, unchanged⟩ | ⟨loading, catalog, _, _, done⟩
    · rw [perform, unchanged]
    · rw [perform, done]
  | generate settings filter dryRun => rfl
  | edit tree => rfl

theorem workplace_after (session : Session) (operations : List Operation) :
    (session.after operations).workplace = session.workplace := by
  induction operations generalizing session with
  | nil => rfl
  | cons operation rest ih => rw [after, ih, workplace_perform]

theorem reload_eq_ok_iff :
    (session.reload settings).2 = .ok () ↔
      settings.Readable session.tree session.workplace ∧
        DistinctNames (collectionsOf (settings.documents session.tree session.workplace)) := by
  rcases session.reload_cases settings with
    ⟨obstacle, failed, reloaded⟩ | ⟨collections, catalog, read, merged, _, reloaded⟩
  · rw [reloaded]
    refine ⟨nofun, ?_⟩
    rintro ⟨readable, names⟩
    obtain ⟨catalog, merged⟩ := Catalog.exists_merge_empty_iff.2 names
    rw [Settings.catalog, readable.definitions_eq] at failed
    simp only [bind, Except.bind, mergeAll, merged, Except.mapError] at failed
    cases failed
  · rw [reloaded]
    obtain ⟨readable, rfl⟩ := Settings.definitions_eq_ok_iff.1 read
    exact iff_of_true rfl ⟨readable, Catalog.exists_merge_empty_iff.1 ⟨catalog, merged⟩⟩

structure SameRun (settings : Settings) (filter : NameFilter) (dryRun : Bool)
    (first second : Session) : Prop where
  outcome : (first.rerun settings filter dryRun).2 = (second.rerun settings filter dryRun).2
  tree : (first.rerun settings filter dryRun).1.tree = (second.rerun settings filter dryRun).1.tree
  catalog :
    (first.rerun settings filter dryRun).1.catalog = (second.rerun settings filter dryRun).1.catalog

structure Leaves (session : Session) (settings : Settings) (filter : NameFilter) (dryRun : Bool) :
    Prop where
  generate_eq : session.generate settings filter dryRun = session.rerun settings filter dryRun
  reloads : (session.reload settings).2 = .ok () ↔
    settings.Readable session.tree session.workplace ∧
      DistinctNames (collectionsOf (settings.documents session.tree session.workplace))
  /-- Nothing, if there are no definitions. -/
  empty : ∀ obstacle, (session.reload settings).2 = .error obstacle →
    (session.rerun settings filter dryRun).1.catalog = .empty
  holds : (session.reload settings).2 = .ok () →
    (session.rerun settings filter dryRun).1.catalog.Holds
      (collectionsOf (settings.documents session.tree session.workplace))

theorem leaves (session : Session) (settings : Settings) (filter : NameFilter) (dryRun : Bool) :
    session.Leaves settings filter dryRun := by
  have left : (session.rerun settings filter dryRun).1.catalog =
      (settings.catalog session.tree session.workplace).toOption.getD .empty := by
    rw [← generate_eq_rerun]
    exact catalog_generate settings filter dryRun session.tree session.workplace
  refine ⟨session.generate_eq_rerun settings filter dryRun, reload_eq_ok_iff, ?_, ?_⟩
  · rcases session.reload_cases settings with
      ⟨obstacle, failed, reloaded⟩ | ⟨collections, catalog, _, _, _, reloaded⟩
    · rw [left, failed]
      exact fun _ _ => rfl
    · rw [reloaded]
      exact nofun
  · rcases session.reload_cases settings with
      ⟨obstacle, _, reloaded⟩ | ⟨collections, catalog, read, merged, made, reloaded⟩
    · rw [reloaded]
      exact nofun
    · have held : catalog.Holds collections := Catalog.holds_empty.merge merged
      rw [left, made, (Settings.definitions_eq_ok_iff.1 read).2]
      exact fun _ => held

theorem sameRun_of_eq {first second : Session} (tree : first.tree = second.tree)
    (workplace : first.workplace = second.workplace) (settings : Settings) (filter : NameFilter)
    (dryRun : Bool) : SameRun settings filter dryRun first second := by
  constructor <;>
    rw [← generate_eq_rerun, ← generate_eq_rerun, generate, generate, tree, workplace]

/-- Whatever has happened to two sessions, if they then have the same files, runs in them come to
the same, and nothing from before is left in their catalogs. Making a script of a catalog changes
nothing, so there is no operation for that. -/
theorem no_state_leaks (settings : Settings) (filter : NameFilter) (dryRun : Bool)
    (tree treeOne treeTwo : FileTree) (workplace : Location) (workersOne workersTwo : Option Int)
    (historyOne historyTwo : List Operation) :
    let one := ((⟨.empty, treeOne, workplace, workersOne⟩ : Session).after historyOne).perform
      (.edit tree)
    let two := ((⟨.empty, treeTwo, workplace, workersTwo⟩ : Session).after historyTwo).perform
      (.edit tree)
    SameRun settings filter dryRun one two ∧
      one.Leaves settings filter dryRun ∧ two.Leaves settings filter dryRun := by
  intro one two
  have trees : one.tree = two.tree := rfl
  have workplaces : one.workplace = two.workplace := by
    simp only [one, two, workplace_perform, workplace_after]
  exact ⟨sameRun_of_eq trees workplaces settings filter dryRun,
    one.leaves settings filter dryRun, two.leaves settings filter dryRun⟩

end Session

end SchemaScript
