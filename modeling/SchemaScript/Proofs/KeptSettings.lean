import Mathlib.Data.List.DropRight
import SchemaScript.Proofs.Overrides

/-!
Settings that are kept. While a program runs, its surroundings change and settings are asked for,
read apart, overridden and dropped. Whoever asks for the settings gets those that could be read when
they were first got after they were last dropped, whatever has changed since.
-/

namespace SchemaScript

structure Keeper where
  surroundings : Surroundings
  cache : SettingsCache
deriving DecidableEq, Repr

namespace Keeper

inductive Operation
  | setVariable (name : String) (value : Option String)
  | setProcessors (number : Option Int)
  | drop
  | read
  | get
  | override (changes : List Setting)
deriving DecidableEq, Repr

def Operation.asks : Operation → Bool
  | .get => true
  | .override _ => true
  | _ => false

abbrev Answer := Except SettingsFault (Option Settings)

def ask (keeper : Keeper) (answer : Settings → Except SettingsFault Settings) : Keeper × Answer :=
  match keeper.cache.get keeper.surroundings with
  | .error fault => (keeper, .error fault)
  | .ok (settings, cache) => ({ keeper with cache }, some <$> answer settings)

def perform (keeper : Keeper) : Operation → Keeper × Answer
  | .setVariable name value =>
    ({ keeper with surroundings := keeper.surroundings.setVariable name value }, .ok none)
  | .setProcessors number =>
    ({ keeper with surroundings := { keeper.surroundings with processors := number } }, .ok none)
  | .drop => ({ keeper with cache := keeper.cache.drop }, .ok none)
  | .read => (keeper, some <$> Settings.ofSurroundings keeper.surroundings)
  | .get => keeper.ask .ok
  | .override changes => keeper.ask fun settings => settings.overrideAll changes

structure Event where
  operation : Operation
  surroundings : Surroundings
  answer : Answer

def event (keeper : Keeper) (operation : Operation) : Event :=
  ⟨operation, keeper.surroundings, (keeper.perform operation).2⟩

def after (keeper : Keeper) (operations : List Operation) : Keeper :=
  operations.foldl (fun keeper operation => (keeper.perform operation).1) keeper

def events (keeper : Keeper) : List Operation → List Event
  | [] => []
  | operation :: rest => keeper.event operation :: (keeper.perform operation).1.events rest

def Event.isGot (event : Event) : Bool :=
  event.operation.asks &&
    match event.answer with
    | .error (.workers _) => false
    | _ => true

def firstGot? (events : List Event) : Option Event :=
  (events.rtakeWhile fun event => event.operation != .drop).find? (·.isGot)

def available (keeper : Keeper) : Except SettingsFault Settings :=
  match keeper.cache.kept with
  | some settings => .ok settings
  | none => Settings.ofSurroundings keeper.surroundings

section

variable (keeper : Keeper) (answer : Settings → Except SettingsFault Settings)

theorem ask_cases :
    (∃ fault, keeper.available = .error fault ∧ keeper.cache.kept = none ∧
      keeper.ask answer = (keeper, .error fault)) ∨
    ∃ settings cache, keeper.available = .ok settings ∧ cache.kept = some settings ∧
      keeper.ask answer = ({ keeper with cache }, some <$> answer settings) := by
  unfold available ask SettingsCache.get
  cases kept : keeper.cache.kept with
  | some settings => exact .inr ⟨settings, keeper.cache, rfl, kept, rfl⟩
  | none =>
    cases Settings.ofSurroundings keeper.surroundings with
    | error fault => exact .inl ⟨fault, rfl, rfl, rfl⟩
    | ok settings => exact .inr ⟨settings, ⟨some settings, _⟩, rfl, rfl, rfl⟩

theorem ask_snd : (keeper.ask answer).2 = some <$> (keeper.available >>= answer) := by
  rcases keeper.ask_cases answer with ⟨fault, none, -, done⟩ | ⟨settings, cache, got, -, done⟩
  · rw [done, none]
    rfl
  · rw [done, got]
    rfl

/-- What settings are asked for is of no account for those that are kept. -/
theorem ask_fst : (keeper.ask answer).1 = (keeper.perform .get).1 := by
  unfold perform ask
  cases keeper.cache.get keeper.surroundings <;> rfl

end

variable {keeper : Keeper}

theorem perform_of_asks (keeper : Keeper) {operation : Operation} (asks : operation.asks = true) :
    ∃ answer, keeper.perform operation = keeper.ask answer ∧
      ∀ settings cause, answer settings ≠ .error (.workers cause) := by
  cases operation with
  | get =>
    refine ⟨.ok, rfl, fun settings cause failed => ?_⟩
    cases failed
  | override changes =>
    refine ⟨_, rfl, fun settings cause failed => ?_⟩
    cases unknown : Setting.firstUnknown? (Settings.given changes) with
    | none =>
      obtain ⟨result, done, -⟩ := Settings.overrideAll_of_known unknown settings
      cases done.symm.trans failed
    | some name => cases (Settings.overrideAll_of_unknown unknown settings).symm.trans failed
  | _ => cases asks

theorem workers_of_ofSurroundings {surroundings : Surroundings} {fault : SettingsFault}
    (failed : Settings.ofSurroundings surroundings = .error fault) :
    ∃ cause, fault = .workers cause := by
  simp only [Settings.ofSurroundings] at failed
  cases number : workersSetting surroundings.defaultWorkers
      (surroundings.value? "PGSPELL_MAX_WORKERS") with
  | ok workers => simp [number, bind, Except.bind, pure, Except.pure] at failed
  | error found =>
    obtain rfl : found = fault := by simpa [number, bind, Except.bind] using failed
    unfold workersSetting at number
    split at number
    · cases number
    · next text _ =>
      cases read : Number.readInteger 10 text with
      | ok n => simp [read, Except.mapError] at number
      | error cause =>
        simp only [read, Except.mapError, Except.error.injEq] at number
        exact ⟨cause, number.symm⟩

theorem workers_of_available {fault : SettingsFault} (failed : keeper.available = .error fault) :
    ∃ cause, fault = .workers cause := by
  unfold available at failed
  split at failed
  · cases failed
  · exact workers_of_ofSurroundings failed

theorem isGot_event {operation : Operation} (asks : operation.asks = true) :
    (keeper.event operation).isGot = keeper.available.isOk := by
  obtain ⟨answer, performed, sound⟩ := keeper.perform_of_asks asks
  simp only [Event.isGot, event, asks, performed, ask_snd, Bool.true_and]
  cases got : keeper.available with
  | error fault =>
    obtain ⟨cause, rfl⟩ := workers_of_available got
    rfl
  | ok settings =>
    change (match (some <$> answer settings : Answer) with
      | .error (.workers _) => false
      | _ => true) = true
    cases answered : answer settings with
    | ok result => rfl
    | error fault =>
      cases fault with
      | workers cause => exact absurd answered (sound settings cause)
      | _ => rfl

theorem firstGot?_append_drop {events : List Event} {event : Event}
    (drops : event.operation = .drop) : firstGot? (events ++ [event]) = none := by
  rw [firstGot?, List.rtakeWhile_concat_neg _ _ _ (by simp [drops])]
  rfl

theorem firstGot?_append {events : List Event} {event : Event}
    (keeps : event.operation ≠ .drop) :
    firstGot? (events ++ [event]) =
      (firstGot? events).or (if event.isGot then some event else none) := by
  rw [firstGot?, List.rtakeWhile_concat_pos _ _ _ (by simp [keeps]), List.find?_append]
  simp [firstGot?, List.find?_singleton]

/-- What is kept are the settings of the surroundings in which they were first got. -/
def Kept (keeper : Keeper) (events : List Event) : Prop :=
  match firstGot? events with
  | none => keeper.cache.kept = none
  | some event => ∃ settings,
    Settings.ofSurroundings event.surroundings = .ok settings ∧ keeper.cache.kept = some settings

theorem Kept.of_none {events : List Event} (none : firstGot? events = none)
    (nothing : keeper.cache.kept = .none) : Kept keeper events := by
  rw [Kept, none]
  exact nothing

theorem Kept.of_some {events : List Event} {event : Event} {settings : Settings}
    (first : firstGot? events = some event)
    (read : Settings.ofSurroundings event.surroundings = .ok settings)
    (kept : keeper.cache.kept = some settings) : Kept keeper events := by
  rw [Kept, first]
  exact ⟨settings, read, kept⟩

theorem Kept.available {events : List Event} (kept : Kept keeper events) :
    keeper.available = Settings.ofSurroundings
      (((firstGot? events).map (·.surroundings)).getD keeper.surroundings) := by
  unfold Kept at kept
  unfold Keeper.available
  cases first : firstGot? events with
  | none =>
    rw [first] at kept
    rw [kept]
    rfl
  | some event =>
    rw [first] at kept
    obtain ⟨settings, read, kept⟩ := kept
    rw [kept]
    exact read.symm

theorem Kept.congr {events more : List Event} {other : Keeper} (kept : Kept keeper events)
    (same : other.cache.kept = keeper.cache.kept) (first : firstGot? more = firstGot? events) :
    Kept other more := by
  unfold Kept
  rw [same, first]
  exact kept

theorem Kept.perform_of_asks {events : List Event} {operation : Operation}
    (kept : Kept keeper events) (asks : operation.asks = true) :
    Kept (keeper.perform operation).1 (events ++ [keeper.event operation]) := by
  obtain ⟨answer, performed, -⟩ := Keeper.perform_of_asks keeper asks
  have keeps : (keeper.event operation).operation ≠ .drop := by
    rintro drops
    rw [show operation = .drop from drops] at asks
    cases asks
  have appended : firstGot? (events ++ [keeper.event operation]) = _ := firstGot?_append keeps
  rw [isGot_event asks] at appended
  rcases keeper.ask_cases answer with ⟨fault, missed, -, done⟩ | ⟨settings, cache, got, now, done⟩
  · rw [missed] at appended
    refine kept.congr (by rw [performed, done]) (appended.trans ?_)
    simp [Except.isOk, Except.toBool]
  · rw [got] at appended
    rw [performed, done]
    have read := kept.available.symm.trans got
    -- Either settings were got before, and that event stays the first, or this one is the first.
    cases first : firstGot? events with
    | none =>
      rw [first] at appended read
      exact Kept.of_some appended read now
    | some event =>
      rw [first] at appended read
      exact Kept.of_some appended read now

theorem Kept.perform {events : List Event} (kept : Kept keeper events) (operation : Operation) :
    Kept (keeper.perform operation).1 (events ++ [keeper.event operation]) := by
  cases operation with
  | drop => exact Kept.of_none (firstGot?_append_drop rfl) rfl
  | get => exact kept.perform_of_asks rfl
  | override changes => exact kept.perform_of_asks rfl
  | _ =>
    refine kept.congr rfl ((firstGot?_append (by simp [event])).trans ?_)
    simp [Event.isGot, event, Operation.asks]

theorem after_append (keeper : Keeper) (operations : List Operation) (operation : Operation) :
    keeper.after (operations ++ [operation]) =
      ((keeper.after operations).perform operation).1 := by
  simp [after]

theorem events_append (keeper : Keeper) (operations : List Operation) (operation : Operation) :
    keeper.events (operations ++ [operation]) =
      keeper.events operations ++ [(keeper.after operations).event operation] := by
  induction operations generalizing keeper with
  | nil => rfl
  | cons first rest ih =>
    rw [List.cons_append, events, ih]
    rfl

def fresh (surroundings : Surroundings) : Keeper := ⟨surroundings, .empty⟩

theorem kept_after (start : Surroundings) (operations : List Operation) :
    Kept ((fresh start).after operations) ((fresh start).events operations) := by
  induction operations using List.reverseRecOn with
  | nil => exact Kept.of_none rfl rfl
  | append_singleton operations operation ih =>
    rw [after_append, events_append]
    exact ih.perform operation

theorem perform_fst_of_workers {operation : Operation} {cause : Number.NumeralFault}
    (failed : (keeper.perform operation).2 = .error (.workers cause)) :
    (keeper.perform operation).1 = keeper ∧
      (operation.asks = true → keeper.cache.kept = none) := by
  by_cases asks : operation.asks = true
  · obtain ⟨answer, performed, sound⟩ := keeper.perform_of_asks asks
    rcases keeper.ask_cases answer with ⟨fault, -, none, done⟩ | ⟨settings, cache, -, -, done⟩
    · rw [performed, done]
      exact ⟨rfl, fun _ => none⟩
    · rw [performed, done] at failed
      cases answered : answer settings with
      | ok result => simp [answered] at failed
      | error fault =>
        rw [answered] at failed
        cases failed
        exact absurd answered (sound settings cause)
  · refine ⟨?_, fun yes => absurd yes asks⟩
    cases operation with
    | read => rfl
    | get => exact absurd rfl asks
    | override changes => exact absurd rfl asks
    | _ => cases failed

theorem kept_perform_of_not_asks {operation : Operation} (silent : operation.asks = false)
    (nothing : keeper.cache.kept = none) : (keeper.perform operation).1.cache.kept = none := by
  cases operation with
  | get => cases silent
  | override changes => cases silent
  | drop => rfl
  | _ => exact nothing

theorem kept_after_of_not_asks {changes : List Operation}
    (silent : ∀ change ∈ changes, change.asks = false) (nothing : keeper.cache.kept = none) :
    (keeper.after changes).cache.kept = none := by
  induction changes generalizing keeper with
  | nil => exact nothing
  | cons change rest ih =>
    exact ih (fun later member => silent later (List.mem_cons_of_mem _ member))
      (kept_perform_of_not_asks (silent change List.mem_cons_self) nothing)

theorem after_filter_read (keeper : Keeper) (operations : List Operation) :
    keeper.after (operations.filter (· != .read)) = keeper.after operations := by
  induction operations generalizing keeper with
  | nil => rfl
  | cons operation rest ih =>
    by_cases reads : operation = .read
    · subst reads
      exact ih keeper
    · rw [List.filter_cons_of_pos (by simpa using reads)]
      exact ih _

/-- The surroundings that the settings of the next call are read from: those in which they were
first got since they were dropped, or those of the call itself where they have not been got yet. -/
def source (start : Surroundings) (operations : List Operation) : Surroundings :=
  ((firstGot? ((fresh start).events operations)).map (·.surroundings)).getD
    ((fresh start).after operations).surroundings

/-- What holds after any operations, of settings that are got and of those that are overridden. -/
structure KeepsFirst (start : Surroundings) (operations : List Operation) (now : Keeper) :
    Prop where
  got : (now.perform .get).2 = some <$> Settings.ofSurroundings (source start operations)
  overridden : ∀ changes, (now.perform (.override changes)).2 = some <$>
    (Settings.ofSurroundings (source start operations) >>= fun settings =>
      settings.overrideAll changes)
  untouched : ∀ changes, (now.perform (.override changes)).1 = (now.perform .get).1
  failed : ∀ operation cause, (now.perform operation).2 = .error (.workers cause) →
    (now.perform operation).1 = now
  repaired : ∀ operation cause, operation.asks = true →
    (now.perform operation).2 = .error (.workers cause) →
      ∀ changes, (∀ change ∈ changes, change.asks = false) →
        let later := (now.perform operation).1.after changes
        (later.perform .get).2 = some <$> Settings.ofSurroundings later.surroundings
  apart : (fresh start).after (operations.filter (· != .read)) = now
  exactly : ∀ (settings result : Settings) changes, settings.overrideAll changes = .ok result →
    settings.Overridden result changes
  refused : ∀ (settings : Settings) changes fault,
    settings.overrideAll changes = .error fault ↔
      ∃ name, Setting.firstUnknown? (Settings.given changes) = some name ∧
        fault = .unknownField name
  twice : ∀ (settings : Settings) first second,
    (settings.overrideAll first >>= fun result => result.overrideAll second) =
      settings.overrideAll (Settings.combined first second)

theorem perform_get_of_not_kept (nothing : keeper.cache.kept = none) :
    (keeper.perform .get).2 = some <$> Settings.ofSurroundings keeper.surroundings := by
  have available : keeper.available = Settings.ofSurroundings keeper.surroundings := by
    simp only [Keeper.available, nothing]
  rw [perform, ask_snd, available]
  exact congrArg _ (bind_pure _)

theorem keepsFirst_after (start : Surroundings) (operations : List Operation) :
    KeepsFirst start operations ((fresh start).after operations) where
  got := by
    rw [perform, ask_snd, (kept_after start operations).available]
    exact congrArg _ (bind_pure _)
  overridden changes := by
    rw [perform, ask_snd, (kept_after start operations).available]
    rfl
  untouched changes := ask_fst _ _
  failed _ _ failed := (perform_fst_of_workers failed).1
  repaired operation cause asks failed changes silent := by
    obtain ⟨same, nothing⟩ := perform_fst_of_workers failed
    rw [same]
    exact perform_get_of_not_kept (kept_after_of_not_asks silent (nothing asks))
  apart := after_filter_read _ operations
  exactly _ _ _ := Settings.overridden_of_overrideAll
  refused _ _ _ := Settings.overrideAll_eq_error_iff
  twice := Settings.overrideAll_overrideAll

example :
    let start : Surroundings := ⟨[("PGSPELL_MAX_WORKERS", "3")], some 2⟩
    let now := (fresh start).after
      [.setVariable "PGSPELL_PATH_IN" (some "a"), .override [.unknown "path" true],
        .setVariable "PGSPELL_PATH_IN" (some "b"), .setProcessors none]
    now.cache.kept.bind (·.pathIn) = some "a" := by
  decide

end Keeper

end SchemaScript
