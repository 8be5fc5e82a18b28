import Mathlib.Data.List.Basic
import SchemaScript.Settings

/-!
Overriding settings. Each field takes the last value that is given for it and keeps its own where
none is; a field that settings do not have is refused. Overriding twice comes to the same as once,
with both overrides in one.
-/

namespace SchemaScript

namespace Settings

inductive Field
  | pathIn
  | pathOut
  | outputFile
  | recursive
  | maxWorkers
  | destructive
  | header
deriving DecidableEq, Repr

def setting (settings : Settings) : Field → Setting
  | .pathIn => .pathIn settings.pathIn
  | .pathOut => .pathOut settings.pathOut
  | .outputFile => .outputFile settings.outputFile
  | .recursive => .recursive settings.recursive
  | .maxWorkers => .maxWorkers settings.maxWorkers
  | .destructive => .destructive settings.destructive
  | .header => .header settings.header

theorem ext_setting {a b : Settings} (same : ∀ field, a.setting field = b.setting field) :
    a = b := by
  cases a
  cases b
  have pathIn := same .pathIn
  have pathOut := same .pathOut
  have outputFile := same .outputFile
  have recursive := same .recursive
  have maxWorkers := same .maxWorkers
  have destructive := same .destructive
  have header := same .header
  simp_all [setting]

end Settings

namespace Setting

inductive Target
  | field (field : Settings.Field)
  | unknown (name : String)
deriving DecidableEq, Repr

def Target.unknown? : Target → Option String
  | .field _ => none
  | .unknown name => some name

def target : Setting → Target
  | .pathIn _ => .field .pathIn
  | .pathOut _ => .field .pathOut
  | .outputFile _ => .field .outputFile
  | .recursive _ => .field .recursive
  | .maxWorkers _ => .field .maxWorkers
  | .destructive _ => .field .destructive
  | .header _ => .field .header
  | .unknown name _ => .unknown name

def last? (changes : List Setting) (target : Target) : Option Setting :=
  (changes.filter fun change => change.target = target).getLast?

def firstUnknown? (changes : List Setting) : Option String :=
  changes.findSome? fun change => change.target.unknown?

theorem last?_append (changes more : List Setting) (target : Target) :
    last? (changes ++ more) target = (last? more target).or (last? changes target) := by
  simp [last?, List.filter_append, List.getLast?_append]

theorem last?_singleton (change : Setting) (target : Target) :
    last? [change] target = if change.target = target then some change else none := by
  unfold last?
  split <;> simp [*]

theorem firstUnknown?_append (changes more : List Setting) :
    firstUnknown? (changes ++ more) = (firstUnknown? changes).or (firstUnknown? more) :=
  List.findSome?_append

theorem apply_of_field {change : Setting} {field : Settings.Field}
    (named : change.target = .field field) (settings : Settings) :
    ∃ result, apply settings change = .ok result ∧
      ∀ other, result.setting other = if field = other then change else settings.setting other := by
  cases change <;> cases named <;>
    exact ⟨_, rfl, fun other => by cases other <;> rfl⟩

theorem apply_of_unknown {change : Setting} {name : String} (named : change.target = .unknown name)
    (settings : Settings) : apply settings change = .error (.unknownField name) := by
  cases change <;> cases named
  rfl

def put (changes : List Setting) (new : Setting) : List Setting :=
  if changes.any fun old => old.target = new.target then
    changes.map fun old => if old.target = new.target then new else old
  else changes ++ [new]

theorem mem_put {changes : List Setting} {new change : Setting}
    (member : change ∈ put changes new) : change ∈ changes ∨ change = new := by
  unfold put at member
  split at member
  · obtain ⟨old, before, rfl⟩ := List.mem_map.1 member
    split
    · exact .inr rfl
    · exact .inl before
  · simpa using member

theorem target_put (old new : Setting) :
    (if old.target = new.target then new else old).target = old.target := by
  split
  · next same => exact same.symm
  · rfl

theorem last?_put (changes : List Setting) (new : Setting) (target : Target) :
    last? (put changes new) target = (last? [new] target).or (last? changes target) := by
  unfold put
  split
  · next named =>
    rw [last?_singleton]
    simp only [last?, List.filter_map, Function.comp_def, target_put, List.getLast?_map]
    cases found : (changes.filter fun change => change.target = target).getLast? with
    | none =>
      obtain ⟨old, member, same⟩ := List.any_eq_true.1 named
      have same := of_decide_eq_true same
      have other : new.target ≠ target := by
        rintro rfl
        have empty := List.getLast?_eq_none_iff.1 found
        simpa [same] using List.filter_eq_nil_iff.1 empty old member
      simp [other]
    | some old =>
      have same : old.target = target := by
        simpa using (List.mem_filter.1 (List.mem_of_getLast? found)).2
      rw [Option.map_some, same]
      by_cases replaced : new.target = target
      · simp [replaced]
      · simp [replaced, Ne.symm replaced]
  · exact last?_append changes [new] target

theorem firstUnknown?_put (changes : List Setting) (new : Setting) :
    firstUnknown? (put changes new) = (firstUnknown? changes).or (firstUnknown? [new]) := by
  unfold put
  split
  · next named =>
    simp only [firstUnknown?, List.findSome?_map, Function.comp_def, target_put,
      List.findSome?_singleton]
    cases found : changes.findSome? fun change => change.target.unknown? with
    | none =>
      obtain ⟨old, member, same⟩ := List.any_eq_true.1 named
      have known := List.findSome?_eq_none_iff.1 found old member
      rw [← of_decide_eq_true same, known]
      rfl
    | some name => rfl
  · exact firstUnknown?_append changes [new]

end Setting

namespace Settings

open Setting

theorem setAll_of_firstUnknown? {changes : List Setting} {name : String}
    (unknown : firstUnknown? changes = some name) (settings : Settings) :
    settings.setAll changes = .error (.unknownField name) := by
  induction changes generalizing settings with
  | nil => cases unknown
  | cons change rest ih =>
    rw [setAll, List.foldlM_cons]
    cases named : change.target with
    | field field =>
      obtain ⟨next, applied, -⟩ := apply_of_field named settings
      rw [applied]
      refine ih ?_ next
      simpa [firstUnknown?, named, Target.unknown?] using unknown
    | unknown other =>
      obtain rfl : other = name := by simpa [firstUnknown?, named, Target.unknown?] using unknown
      rw [apply_of_unknown named]
      rfl

theorem setAll_of_known {changes : List Setting} (known : firstUnknown? changes = none)
    (settings : Settings) :
    ∃ result, settings.setAll changes = .ok result ∧
      ∀ field, result.setting field =
        (last? changes (.field field)).getD (settings.setting field) := by
  induction changes generalizing settings with
  | nil => exact ⟨settings, rfl, fun _ => rfl⟩
  | cons change rest ih =>
    cases named : change.target with
    | unknown name => simp [firstUnknown?, named, Target.unknown?] at known
    | field field =>
      have known : firstUnknown? rest = none := by
        simpa [firstUnknown?, named, Target.unknown?] using known
      obtain ⟨next, applied, sets⟩ := apply_of_field named settings
      obtain ⟨result, done, told⟩ := ih known next
      refine ⟨result, by rw [setAll, List.foldlM_cons, applied]; exact done, fun other => ?_⟩
      rw [told, sets, ← List.singleton_append, last?_append, last?_singleton, named]
      by_cases same : field = other
      · subst same
        simp
      · simp [same]

@[simp] theorem isGiven_setting_unset (field : Field) : (unset.setting field).isGiven = false := by
  cases field <;> rfl

theorem setting_override (settings changes : Settings) (field : Field) :
    (settings.override changes).setting field =
      if (changes.setting field).isGiven then changes.setting field
      else settings.setting field := by
  have orElse {α β : Type} (f : Option α → β) (a b : Option α) :
      f (a <|> b) = if a.isSome then f a else f b := by
    cases a <;> rfl
  cases field with
  | pathIn => exact orElse Setting.pathIn _ _
  | pathOut => exact orElse Setting.pathOut _ _
  | outputFile => exact orElse Setting.outputFile _ _
  | recursive => exact orElse Setting.recursive _ _
  | maxWorkers => exact orElse Setting.maxWorkers _ _
  | destructive => exact orElse Setting.destructive _ _
  | header => exact orElse Setting.header _ _

def given (changes : List Setting) : List Setting := changes.filter (·.isGiven)

/-- Each field has the last value that is given for it, or else the one it had. -/
def Overridden (settings result : Settings) (changes : List Setting) : Prop :=
  ∀ field, result.setting field =
    (last? (given changes) (.field field)).getD (settings.setting field)

theorem isGiven_of_last? {changes : List Setting} {target : Target} {change : Setting}
    (found : last? (given changes) target = some change) : change.isGiven = true := by
  have member := List.mem_of_getLast? found
  exact (List.mem_filter.1 (List.mem_filter.1 member).1).2

theorem overrideAll_of_unknown {changes : List Setting} {name : String}
    (unknown : firstUnknown? (given changes) = some name) (settings : Settings) :
    settings.overrideAll changes = .error (.unknownField name) := by
  rw [overrideAll, ← given, setAll_of_firstUnknown? unknown]
  rfl

theorem overrideAll_of_known {changes : List Setting}
    (known : firstUnknown? (given changes) = none) (settings : Settings) :
    ∃ result, settings.overrideAll changes = .ok result ∧ settings.Overridden result changes := by
  obtain ⟨changed, done, told⟩ := setAll_of_known known unset
  refine ⟨settings.override changed, ?_, fun field => ?_⟩
  · rw [overrideAll, ← given, done]
    rfl
  · rw [setting_override, told]
    cases found : last? (given changes) (.field field) with
    | none => simp
    | some change => simp [isGiven_of_last? found]

theorem overridden_of_overrideAll {settings result : Settings} {changes : List Setting}
    (done : settings.overrideAll changes = .ok result) : settings.Overridden result changes := by
  cases unknown : firstUnknown? (given changes) with
  | some name => cases (overrideAll_of_unknown unknown settings).symm.trans done
  | none =>
    obtain ⟨_, same, told⟩ := overrideAll_of_known unknown settings
    cases same.symm.trans done
    exact told

theorem overrideAll_eq_error_iff {settings : Settings} {changes : List Setting}
    {fault : SettingsFault} :
    settings.overrideAll changes = .error fault ↔
      ∃ name, firstUnknown? (given changes) = some name ∧ fault = .unknownField name := by
  cases unknown : firstUnknown? (given changes) with
  | some name => simp [overrideAll_of_unknown unknown settings, eq_comm]
  | none =>
    obtain ⟨_, done, -⟩ := overrideAll_of_known unknown settings
    simp [done]

/-- Overrides in one: a value that is given later takes the place of the one before, or comes
last. -/
def combined (first second : List Setting) : List Setting := (given second).foldl put (given first)

theorem mem_foldl_put {changes more : List Setting} {change : Setting}
    (member : change ∈ more.foldl put changes) : change ∈ changes ∨ change ∈ more := by
  induction more generalizing changes with
  | nil => exact .inl member
  | cons new more ih =>
    rcases ih member with placed | later
    · rcases mem_put placed with before | rfl
      · exact .inl before
      · exact .inr List.mem_cons_self
    · exact .inr (List.mem_cons_of_mem _ later)

theorem last?_foldl_put (changes more : List Setting) (target : Target) :
    last? (more.foldl put changes) target = (last? more target).or (last? changes target) := by
  induction more generalizing changes with
  | nil => rfl
  | cons new more ih =>
    have split := last?_append [new] more target
    rw [List.singleton_append] at split
    rw [List.foldl_cons, ih, last?_put, split, Option.or_assoc]

theorem firstUnknown?_foldl_put (changes more : List Setting) :
    firstUnknown? (more.foldl put changes) =
      (firstUnknown? changes).or (firstUnknown? more) := by
  induction more generalizing changes with
  | nil => simp [firstUnknown?]
  | cons new more ih =>
    have split := firstUnknown?_append [new] more
    rw [List.singleton_append] at split
    rw [List.foldl_cons, ih, firstUnknown?_put, split, Option.or_assoc]

theorem given_combined (first second : List Setting) :
    given (combined first second) = combined first second := by
  refine List.filter_eq_self.2 fun change member => ?_
  rcases mem_foldl_put member with member | member
  · exact (List.mem_filter.1 member).2
  · exact (List.mem_filter.1 member).2

theorem last?_combined (first second : List Setting) (target : Target) :
    last? (given (combined first second)) target =
      (last? (given second) target).or (last? (given first) target) := by
  rw [given_combined, combined, last?_foldl_put]

theorem firstUnknown?_combined (first second : List Setting) :
    firstUnknown? (given (combined first second)) =
      (firstUnknown? (given first)).or (firstUnknown? (given second)) := by
  rw [given_combined, combined, firstUnknown?_foldl_put]

theorem overrideAll_overrideAll (settings : Settings) (first second : List Setting) :
    (settings.overrideAll first >>= fun result => result.overrideAll second) =
      settings.overrideAll (combined first second) := by
  have whole := firstUnknown?_combined first second
  cases unknown : firstUnknown? (given first) with
  | some name =>
    rw [unknown, Option.some_or] at whole
    rw [overrideAll_of_unknown unknown, overrideAll_of_unknown whole]
    rfl
  | none =>
    rw [unknown, Option.none_or] at whole
    obtain ⟨middle, done, told⟩ := overrideAll_of_known unknown settings
    rw [done]
    change middle.overrideAll second = _
    cases unknown' : firstUnknown? (given second) with
    | some name =>
      rw [overrideAll_of_unknown unknown', overrideAll_of_unknown (whole.trans unknown')]
    | none =>
      obtain ⟨result, done, told'⟩ := overrideAll_of_known unknown' middle
      obtain ⟨once, done', told''⟩ := overrideAll_of_known (whole.trans unknown') settings
      have same : result = once := ext_setting fun field => by
        rw [told' field, told field, told'' field, last?_combined, Option.getD_or]
      rw [done, done', same]

end Settings

end SchemaScript
