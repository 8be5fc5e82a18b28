import SchemaScript.Proofs.Reloading

/-!
Two ways to fill an empty catalog from a directory. One tells by a truth value whether it is done,
the other is the first half of a run and has an obstacle for whatever may be in the way. On the same
directory they read the same documents, fail for the same reasons and leave the same catalog.
-/

namespace SchemaScript

namespace Session

inductive SameError : LoadFailure → Obstacle → Prop
  | notDirectory (path : String) :
    SameError (.discovery (.notDirectory path)) (.failure (.notDirectory path))
  | refused (fault : PathFault) : SameError (.discovery (.refused fault)) (.halt (.path fault))
  | stopped (stop : LoadStop) : SameError (.stopped stop) (.halt (.load stop))

theorem SameError.unique {failure other : LoadFailure} {obstacle : Obstacle}
    (same : SameError failure obstacle) (again : SameError other obstacle) : failure = other := by
  cases same <;> cases again <;> rfl

/-- What the two ways of loading tell of one event. -/
inductive SameOutcome : Except LoadFailure Bool → Except Obstacle Unit → Prop
  | loaded : SameOutcome (.ok true) (.ok ())
  | documents (errors : List FileError) :
    SameOutcome (.ok false) (.error (.failure (.documents errors)))
  | duplicates (repeated : List Duplicate) :
    SameOutcome (.ok false) (.error (.failure (.duplicates repeated)))
  | raised {failure : LoadFailure} {obstacle : Obstacle} (same : SameError failure obstacle) :
    SameOutcome (.error failure) (.error obstacle)

def settingsFor (session : Session) (settings : Settings) (directory : String) (recursive : Bool) :
    Settings :=
  { settings with
    pathIn := some directory, recursive := some recursive, maxWorkers := session.workers }

section Loading

variable (session : Session) (settings : Settings) (directory : String) (recursive : Bool)

theorem loading_cases :
    (∃ failure obstacle, SameError failure obstacle ∧
      session.loading directory ⟨recursive, false, session.workers⟩ = .error failure ∧
      (session.settingsFor settings directory recursive).definitions session.tree
        session.workplace = .error obstacle) ∨
    ∃ loading : Loading,
      session.loading directory ⟨recursive, false, session.workers⟩ = .ok loading ∧
      (session.settingsFor settings directory recursive).definitions session.tree
        session.workplace =
          if loading.isSuccess then .ok loading.collections
          else .error (.failure (.documents loading.errors)) := by
  have given : (session.settingsFor settings directory recursive).pathIn = some directory := rfl
  have options : (session.settingsFor settings directory recursive).loadOptions =
      ⟨recursive, false, session.workers⟩ := rfl
  rw [Settings.definitions, Settings.loading_eq_of_pathIn given, options, loading]
  cases load session.tree session.workplace directory ⟨recursive, false, session.workers⟩ with
  | error fault =>
    cases fault with
    | notDirectory path => exact .inl ⟨_, _, .notDirectory path, rfl, rfl⟩
    | refused fault => exact .inl ⟨_, _, .refused fault, rfl, rfl⟩
  | ok loading =>
    simp only [Except.mapError, bind, Except.bind, Loading.definitions]
    cases loading.stop? with
    | some stop => exact .inl ⟨_, _, .stopped stop, rfl, rfl⟩
    | none => exact .inr ⟨loading, rfl, rfl⟩

theorem exists_sameOutcome (given : directory ≠ "") :
    ∃ after answer outcome,
      session.clear.loadDefinitions directory recursive = (after, answer) ∧
      session.clear.reload (session.settingsFor settings directory recursive) = (after, outcome) ∧
      SameOutcome answer outcome := by
  have nonempty : directory.isEmpty = false := by simpa using given
  have cleared : session.clear.clear = session.clear := rfl
  have known : session.clear.settingsFor settings directory recursive =
      session.settingsFor settings directory recursive := rfl
  rcases session.clear.loading_cases settings directory recursive with
    ⟨failure, obstacle, same, failed, unread⟩ | ⟨loading, read, defined⟩
  · refine ⟨session.clear, .error failure, .error obstacle, ?_, ?_, .raised same⟩
    · simp only [loadDefinitions, nonempty, failed, Bool.false_eq_true, ↓reduceIte]
    · simp only [reload, cleared, ← known, unread]
  · rw [known] at defined
    cases success : loading.isSuccess with
    | false =>
      refine ⟨session.clear, .ok false, _, ?_, ?_, .documents loading.errors⟩
      · simp only [loadDefinitions, nonempty, read, success, Bool.false_eq_true, ↓reduceIte]
      · simp only [reload, cleared, defined, success, Bool.false_eq_true, ↓reduceIte]
    | true =>
      simp only [loadDefinitions, nonempty, read, reload, cleared, defined, success,
        Bool.false_eq_true, ↓reduceIte]
      rcases session.clear.merge_cases loading.collections with
        ⟨duplicates, refused⟩ | ⟨catalog, _, done⟩
      · rw [refused]
        exact ⟨_, _, _, rfl, rfl, .duplicates duplicates⟩
      · rw [done]
        exact ⟨_, _, _, rfl, rfl, .loaded⟩

end Loading

/-- Two loadings of one directory agree: they do it or not, for the same reason, and leave the same
catalog. -/
structure LoadsAlike (answered : Session × Except LoadFailure Bool)
    (reloaded : Session × Except Obstacle Unit) : Prop where
  loaded : answered.2 = .ok true ↔ reloaded.2 = .ok ()
  refused : answered.2 = .ok false ↔
    (∃ errors, reloaded.2 = .error (.failure (.documents errors))) ∨
      ∃ repeated, reloaded.2 = .error (.failure (.duplicates repeated))
  raised : ∀ failure, answered.2 = .error failure ↔
    ∃ obstacle, SameError failure obstacle ∧ reloaded.2 = .error obstacle
  met : ∀ obstacle, reloaded.2 = .error obstacle →
    answered.2 = .ok false ∨ ∃ failure, SameError failure obstacle ∧ answered.2 = .error failure
  catalog : answered.1.catalog = reloaded.1.catalog

theorem SameOutcome.loadsAlike {after : Session} {answer : Except LoadFailure Bool}
    {outcome : Except Obstacle Unit} (same : SameOutcome answer outcome) :
    LoadsAlike (after, answer) (after, outcome) := by
  cases same with
  | loaded => exact ⟨by simp, by simp, by simp, nofun, rfl⟩
  | documents errors =>
    have different : ∀ failure, ¬ SameError failure (.failure (.documents errors)) := nofun
    exact ⟨by simp, by simp, by simpa using different, fun _ _ => .inl rfl, rfl⟩
  | duplicates repeated =>
    have different : ∀ failure, ¬ SameError failure (.failure (.duplicates repeated)) := nofun
    exact ⟨by simp, by simp, by simpa using different, fun _ _ => .inl rfl, rfl⟩
  | @raised failure obstacle same =>
    refine ⟨by simp, ?_, fun other => ⟨?_, ?_⟩, ?_, rfl⟩
    · cases same <;> simp
    · intro met
      cases met
      exact ⟨obstacle, same, rfl⟩
    · rintro ⟨_, again, met⟩
      cases met
      rw [same.unique again]
    · intro _ met
      cases met
      exact .inr ⟨failure, same, rfl⟩

/-- Whether definitions are added to an empty catalog or reloaded for a run, a directory is loaded
in the same cases, and with the same catalog. -/
theorem loadDefinitions_alike_reload (session : Session) (settings : Settings) {directory : String}
    (given : directory ≠ "") (recursive : Bool) :
    LoadsAlike (session.clear.loadDefinitions directory recursive)
      (session.clear.reload (session.settingsFor settings directory recursive)) := by
  obtain ⟨after, answer, outcome, answered, reloaded, same⟩ :=
    session.exists_sameOutcome settings directory recursive given
  rw [answered, reloaded]
  exact same.loadsAlike

theorem loadDefinitions_alike_reload_paint :
    "defs" ≠ "" ∧
    LoadsAlike ((⟨Sample.catalog, Sample.paintTree, [], some 2⟩ : Session).clear.loadDefinitions
        "defs" true)
      ((⟨Sample.catalog, Sample.paintTree, [], some 2⟩ : Session).clear.reload
        ((⟨Sample.catalog, Sample.paintTree, [], some 2⟩ : Session).settingsFor
          (Sample.fromDirectory "output") "defs" true)) :=
  have given : "defs" ≠ "" := by decide
  ⟨given, loadDefinitions_alike_reload _ _ given true⟩

end Session

end SchemaScript
