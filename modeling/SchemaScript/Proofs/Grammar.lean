import Mathlib.Data.List.Basic
import SchemaScript.Proofs.Accepting

/-!
The grammar of definitions. For values that JSON can write, it is said field by field which ones
are definitions, and what the definition holds that is read from them. The checks accept exactly
these values.
-/

namespace SchemaScript

open Checked

namespace Value

/-- Values that JSON can write: the keys of mappings are text, and there are no sets, bytes or
dates. -/
inductive IsJson : Value → Prop
  | null : IsJson .null
  | boolean (truth : Bool) : IsJson (.boolean truth)
  | integer (n : Int) : IsJson (.integer n)
  | real (x : Number.Binary64) : IsJson (.real x)
  | text (text : String) : IsJson (.text text)
  | list {items : List Value} (each : ∀ item ∈ items, IsJson item) : IsJson (.list items)
  | mapping {entries : List (Value × Value)}
      (keys : ∀ entry ∈ entries, ∃ name, entry.1 = .text name)
      (values : ∀ entry ∈ entries, IsJson entry.2) : IsJson (.mapping entries)

@[simp] theorem isJson_boolean (truth : Bool) : IsJson (.boolean truth) := .boolean truth

@[simp] theorem isJson_integer (n : Int) : IsJson (.integer n) := .integer n

@[simp] theorem isJson_text (written : String) : IsJson (.text written) := .text written

@[simp] theorem isJson_list {items : List Value} :
    IsJson (.list items) ↔ ∀ item ∈ items, IsJson item :=
  ⟨fun | .list each => each, .list⟩

@[simp] theorem isJson_mapping {entries : List (Value × Value)} :
    IsJson (.mapping entries) ↔
      (∀ entry ∈ entries, ∃ name, entry.1 = .text name) ∧ ∀ entry ∈ entries, IsJson entry.2 :=
  ⟨fun | .mapping keys values => ⟨keys, values⟩, fun ⟨keys, values⟩ => .mapping keys values⟩

/-- Truth values may be written as numbers or words. Case does not matter in words. -/
inductive StandsFor : Value → Bool → Prop
  | boolean (truth : Bool) : StandsFor (.boolean truth) truth
  | nought : StandsFor (.integer 0) false
  | one : StandsFor (.integer 1) true
  | realNought {x : Number.Binary64} (equal : x.integral? = some 0) : StandsFor (.real x) false
  | realOne {x : Number.Binary64} (equal : x.integral? = some 1) : StandsFor (.real x) true
  | no {text : String}
      (listed : String.ofList (text.toList.map Char.toLower) ∈ falseWords) :
      StandsFor (.text text) false
  | yes {text : String}
      (listed : String.ofList (text.toList.map Char.toLower) ∈ trueWords) :
      StandsFor (.text text) true

theorem areUnicode_iff {items : List Value} :
    areUnicode items = true ↔ ∀ item ∈ items, item.isUnicode = true := by
  induction items with
  | nil => simp [areUnicode]
  | cons item items ih => simp [areUnicode, ih]

theorem entriesAreUnicode_iff {entries : List (Value × Value)} :
    entriesAreUnicode entries = true ↔
      ∀ entry ∈ entries, entry.1.isUnicode = true ∧ entry.2.isUnicode = true := by
  induction entries with
  | nil => simp [entriesAreUnicode]
  | cons entry entries ih => simp [entriesAreUnicode, ih]

theorem IsJson.isUnicode {value : Value} (json : value.IsJson) : value.isUnicode = true := by
  induction json with
  | list each ih => exact areUnicode_iff.2 ih
  | mapping names values ih =>
    refine entriesAreUnicode_iff.2 fun entry member => ⟨?_, ih entry member⟩
    obtain ⟨name, same⟩ := names entry member
    rw [same]
    rfl
  | _ => rfl

theorem IsJson.field {entries : List (Value × Value)} {name : String} {value : Value}
    (json : IsJson (.mapping entries)) (found : field? entries name = some value) :
    value.IsJson :=
  (isJson_mapping.1 json).2 _ (mem_of_field? found)

theorem IsJson.item {items : List Value} {item : Value} (json : IsJson (.list items))
    (member : item ∈ items) : item.IsJson :=
  isJson_list.1 json item member

theorem IsJson.items?_eq_some {value : Value} {items : List Value} (json : value.IsJson) :
    items? value = some items ↔ value = .list items := by
  cases json <;> simp [items?]

end Value

open Value

section

variable (entries : List (Value × Value)) (name : String)

def Given : Prop := ∃ value, field? entries name = some value

def MustHold (form : Value → Prop) : Prop := ∃ value, field? entries name = some value ∧ form value

def MayHold (form : Value → Prop) : Prop := ∀ value, field? entries name = some value → form value

end

def IsText (value : Value) : Prop := ∃ text, value = .text text

def IsName (value : Value) : Prop := ∃ text, value = .text text ∧ isIdentifier text = true

def IsTruth (value : Value) : Prop := ∃ truth, value.StandsFor truth

def IsListOf (form : Value → Prop) (value : Value) : Prop :=
  ∃ items, value = .list items ∧ ∀ item ∈ items, form item

structure ColumnForm (entries : List (Value × Value)) : Prop where
  keys : OnlyKeys ["type", "name", "nullable", "comment", "identity"] entries
  type : MustHold entries "type" IsText
  name : MustHold entries "name" IsName
  nullable : MayHold entries "nullable" IsTruth
  comment : MayHold entries "comment" IsText
  identity : MayHold entries "identity" IsTruth

def IsColumn (value : Value) : Prop := ∃ entries, value = .mapping entries ∧ ColumnForm entries

def IsFlagged (value : Value) : Prop :=
  ∃ entries flag, value = .mapping entries ∧ field? entries "identity" = some flag ∧
    flag.StandsFor true

def IsIdentity (value : Value) : Prop :=
  IsFlagged value ∨ ∃ entries, value = .mapping entries ∧
    field? entries "name" = some (.text "id")

def IsOptions (value : Value) : Prop :=
  ∃ entries, value = .mapping entries ∧ OnlyKeys ["unlogged"] entries ∧
    MayHold entries "unlogged" IsTruth

structure HeadingForm (more : List String) (entries : List (Value × Value)) : Prop where
  keys : OnlyKeys (["schema", "schema_", "name", "comment"] ++ more) entries
  schema_once : ¬ (Given entries "schema" ∧ Given entries "schema_")
  schema : MayHold entries "schema" IsName
  schema_ : MayHold entries "schema_" IsName
  name : MustHold entries "name" IsName
  comment : MayHold entries "comment" IsText

structure EnumForm (entries : List (Value × Value)) : Prop extends
    HeadingForm ["items"] entries where
  items : MustHold entries "items" fun value => IsListOf IsText value ∧ value ≠ .list []

structure CompositeForm (entries : List (Value × Value)) : Prop extends
    HeadingForm ["columns"] entries where
  columns : MayHold entries "columns" (IsListOf IsColumn)
  no_identity : MayHold entries "columns" (IsListOf fun column => ¬ IsFlagged column)

structure TableForm (entries : List (Value × Value)) : Prop extends
    HeadingForm ["options", "columns"] entries where
  options : MayHold entries "options" IsOptions
  columns : MustHold entries "columns" fun value => IsListOf IsColumn value ∧ value ≠ .list []
  one_identity : MayHold entries "columns" fun value => ∃ columns, value = .list columns ∧
    columns.Pairwise fun first second => ¬ (IsIdentity first ∧ IsIdentity second)

def IsEnum (value : Value) : Prop := ∃ entries, value = .mapping entries ∧ EnumForm entries

def IsComposite (value : Value) : Prop :=
  ∃ entries, value = .mapping entries ∧ CompositeForm entries

def IsTable (value : Value) : Prop := ∃ entries, value = .mapping entries ∧ TableForm entries

def ReadOr {α : Type} (reads : Value → α → Prop) (default : α) (value? : Option Value) (a : α) :
    Prop :=
  match value? with
  | some value => reads value a
  | none => a = default

def ReadsText (value : Value) (text : String) : Prop := value = .text text

def ReadsName (value : Value) (name : Identifier) : Prop := value = .text name.text

structure Column.ReadFrom (entries : List (Value × Value)) (column : Column) : Prop where
  type : ∃ text, field? entries "type" = some (.text text) ∧ column.type = .parse text
  name : field? entries "name" = some (.text column.name.text)
  nullable : ReadOr StandsFor true (field? entries "nullable") column.nullable
  comment : ReadOr ReadsText "" (field? entries "comment") column.comment
  identity : ReadOr StandsFor false (field? entries "identity") column.identity

def ReadsColumn (value : Value) (column : Column) : Prop :=
  ∃ entries, value = .mapping entries ∧ column.ReadFrom entries

def ReadsColumns (value : Value) (columns : List Column) : Prop :=
  ∃ items, value = .list items ∧ List.Forall₂ ReadsColumn items columns

def ReadsOptions (value : Value) (options : TableOptions) : Prop :=
  ∃ entries, value = .mapping entries ∧
    ReadOr StandsFor false (field? entries "unlogged") options.unlogged

structure Heading.ReadFrom (entries : List (Value × Value)) (heading : Heading) : Prop where
  schema : ReadOr ReadsName defaultSchema
    ((field? entries "schema").or (field? entries "schema_")) heading.schema
  name : field? entries "name" = some (.text heading.name.text)
  comment : ReadOr ReadsText "" (field? entries "comment") heading.comment
  isUnicode : heading.isUnicode = true

def ReadsEnum (value : Value) (enum : EnumType) : Prop :=
  ∃ entries, value = .mapping entries ∧ enum.toHeading.ReadFrom entries ∧
    field? entries "items" = some (.list (enum.labels.map .text))

def ReadsComposite (value : Value) (composite : CompositeType) : Prop :=
  ∃ entries, value = .mapping entries ∧ composite.toHeading.ReadFrom entries ∧
    ReadOr ReadsColumns [] (field? entries "columns") composite.columns

def ReadsTable (value : Value) (table : Table) : Prop :=
  ∃ entries, value = .mapping entries ∧ table.toHeading.ReadFrom entries ∧
    ReadOr ReadsOptions ⟨false⟩ (field? entries "options") table.options ∧
    ∃ columns, field? entries "columns" = some columns ∧ ReadsColumns columns table.columns

section

variable {value : Value} (json : value.IsJson)
include json

theorem checkText_eq_valid {text : String} :
    checkText value = .valid text ↔ ReadsText value text := by
  cases json <;> simp [checkText, fault, ReadsText]

theorem checkIdentifier_eq_valid {name : Identifier} :
    checkIdentifier value = .valid name ↔ ReadsName value name := by
  have opened : checkIdentifier value = (checkText value).andThen identifierOf := by
    cases json <;> rfl
  simp only [opened, andThen_eq_valid, checkText_eq_valid json, ReadsText, ReadsName]
  constructor
  · rintro ⟨text, rfl, taken⟩
    unfold identifierOf at taken
    split at taken
    · next found =>
      cases taken
      rw [Identifier.ofText?_eq_some.1 found]
    · cases taken
  · rintro rfl
    exact ⟨name.text, rfl, by rw [identifierOf, Identifier.ofText?_eq_some.2 rfl]⟩

end

theorem wordBoolean_eq_valid {text : String} {truth : Bool} :
    wordBoolean text = .valid truth ↔ (Value.text text).StandsFor truth := by
  have apart : ∀ word ∈ falseWords, word ∉ trueWords := by decide
  simp only [wordBoolean]
  constructor
  · intro read
    split_ifs at read with yes no
    · cases read
      exact .yes (List.contains_iff_mem.1 yes)
    · cases read
      exact .no (List.contains_iff_mem.1 no)
    · cases read
  · intro stands
    cases stands with
    | no listed => simp [listed, apart _ listed]
    | yes listed => simp [listed]

theorem numberBoolean_eq_valid {least greatest n : Int} {truth : Bool} (below : least ≤ 0)
    (above : 1 ≤ greatest) :
    numberBoolean least greatest n = .valid truth ↔
      n = 0 ∧ truth = false ∨ n = 1 ∧ truth = true := by
  unfold numberBoolean
  split_ifs with outside nought one
  · have far : n < least ∨ greatest < n := by simpa using outside
    refine iff_of_false nofun ?_
    rintro (⟨rfl, -⟩ | ⟨rfl, -⟩) <;> omega
  · simp [nought, eq_comm]
  · simp [one, eq_comm]
  · exact iff_of_false nofun (by simp [nought, one])

theorem checkBoolean_eq_valid {value : Value} (json : value.IsJson) {truth : Bool} :
    checkBoolean value = .valid truth ↔ value.StandsFor truth := by
  cases json with
  | boolean given =>
    constructor
    · rintro ⟨⟩
      exact .boolean truth
    · rintro ⟨⟩
      rfl
  | integer n =>
    rw [checkBoolean, numberBoolean_eq_valid (by decide) (by decide)]
    constructor
    · rintro (⟨rfl, rfl⟩ | ⟨rfl, rfl⟩)
      · exact .nought
      · exact .one
    · rintro (_ | _ | _) <;> simp
  | real x =>
    constructor
    · intro read
      rw [checkBoolean] at read
      split at read
      · next n equal =>
        rcases (numberBoolean_eq_valid (by decide) (by decide)).1 read with
          ⟨rfl, rfl⟩ | ⟨rfl, rfl⟩
        · exact .realNought equal
        · exact .realOne equal
      · cases read
    · rintro (_ | _ | _ | equal | equal)
      all_goals
        simp only [checkBoolean, equal]
        exact (numberBoolean_eq_valid (by decide) (by decide)).2 (by simp)
  | text text => exact wordBoolean_eq_valid
  | _ => exact ⟨nofun, nofun⟩

section

variable {α : Type} {check : Value → Checked α} {form : Value → Prop}
  {entries : List (Value × Value)} {name : String}

/-- Of the values that JSON can write, a check accepts just those of some form. -/
def AcceptsJust (check : Value → Checked α) (form : Value → Prop) : Prop :=
  ∀ value, value.IsJson → ((check value).Accepts ↔ form value)

theorem AcceptsJust.required (just : AcceptsJust check form) (json : (mapping entries).IsJson) :
    (required entries name check).Accepts ↔ MustHold entries name form := by
  rw [accepts_required]
  refine exists_congr fun value => and_congr_right fun found => just value (json.field found)

theorem AcceptsJust.optional {default : α} (just : AcceptsJust check form)
    (json : (mapping entries).IsJson) :
    (optional entries name default check).Accepts ↔ MayHold entries name form := by
  rw [accepts_optional]
  refine forall₂_congr fun value found => just value (json.field found)

theorem AcceptsJust.list (just : AcceptsJust check form) :
    AcceptsJust (checkList check) (IsListOf form) := by
  intro value json
  simp only [accepts_checkList, json.items?_eq_some, IsListOf]
  refine exists_congr fun items => and_congr_right ?_
  rintro rfl
  exact forall₂_congr fun item member => just item (json.item member)

theorem AcceptsJust.nonEmptyList (just : AcceptsJust check form) :
    AcceptsJust (checkNonEmptyList check) fun value => IsListOf form value ∧ value ≠ .list [] := by
  intro value json
  simp only [accepts_checkNonEmptyList, json.items?_eq_some, ← just.list value json,
    accepts_checkList]
  constructor
  · rintro ⟨items, rfl, filled, each⟩
    exact ⟨⟨items, rfl, each⟩, by simpa using filled⟩
  · rintro ⟨⟨items, rfl, each⟩, filled⟩
    exact ⟨items, rfl, by simpa using filled, each⟩

theorem acceptsJust_checkText : AcceptsJust checkText IsText := fun _ json =>
  exists_congr fun _ => checkText_eq_valid json

theorem acceptsJust_checkIdentifier : AcceptsJust checkIdentifier IsName := by
  intro value json
  simp only [Accepts, checkIdentifier_eq_valid json, ReadsName, IsName]
  constructor
  · rintro ⟨name, same⟩
    exact ⟨name.text, same, name.wellFormed⟩
  · rintro ⟨word, same, wellFormed⟩
    exact ⟨⟨word, wellFormed⟩, same⟩

theorem acceptsJust_checkBoolean : AcceptsJust checkBoolean IsTruth := fun _ json =>
  exists_congr fun _ => checkBoolean_eq_valid json

end

theorem acceptsJust_mapping {α : Type} {part : Part} {check : List (Value × Value) → Checked α}
    {form : List (Value × Value) → Prop}
    (just : ∀ entries, (mapping entries).IsJson → ((check entries).Accepts ↔ form entries)) :
    AcceptsJust (fun value => checkMapping part value check)
      fun value => ∃ entries, value = .mapping entries ∧ form entries := by
  intro value json
  rw [accepts_checkMapping]
  refine exists_congr fun entries => and_congr_right ?_
  rintro rfl
  exact just entries json

theorem acceptsJust_checkColumn : AcceptsJust checkColumn IsColumn := by
  refine acceptsJust_mapping fun entries json => ?_
  simp only [accepts_withFaults, accepts_seq, accepts_map, unknownKeys_eq_nil,
    acceptsJust_checkText.required json, acceptsJust_checkIdentifier.required json,
    acceptsJust_checkBoolean.optional json, acceptsJust_checkText.optional json]
  constructor
  · rintro ⟨⟨⟨⟨⟨type, name⟩, nullable⟩, comment⟩, identity⟩, keys⟩
    exact ⟨keys, type, name, nullable, comment, identity⟩
  · rintro ⟨keys, type, name, nullable, comment, identity⟩
    exact ⟨⟨⟨⟨⟨type, name⟩, nullable⟩, comment⟩, identity⟩, keys⟩

theorem acceptsJust_checkOptions : AcceptsJust checkOptions IsOptions := by
  refine acceptsJust_mapping fun entries json => ?_
  simp only [accepts_withFaults, accepts_map, unknownKeys_eq_nil,
    acceptsJust_checkBoolean.optional json]
  exact and_comm

section

variable {entries : List (Value × Value)}

theorem given_of_mem {name : String} {value : Value} (member : (text name, value) ∈ entries) :
    Given entries name := by
  induction entries with
  | nil => cases member
  | cons entry rest ih =>
    rcases List.mem_cons.1 member with rfl | later
    · exact ⟨value, by simp [field?]⟩
    · obtain ⟨key, first⟩ := entry
      cases key with
      | text key =>
        by_cases same : key = name
        · exact ⟨first, by simp [field?, same]⟩
        · simpa [Given, field?, same] using ih later
      | _ => simpa [Given, field?] using ih later

theorem onlyKeys_iff_of_fresh {known : List String} {name : String} (fresh : name ∉ known) :
    OnlyKeys known entries ↔ OnlyKeys (name :: known) entries ∧ ¬ Given entries name := by
  constructor
  · intro only
    refine ⟨fun entry member => ?_, ?_⟩
    · obtain ⟨key, listed, same⟩ := only entry member
      exact ⟨key, List.mem_cons_of_mem _ listed, same⟩
    · rintro ⟨value, found⟩
      obtain ⟨key, listed, same⟩ := only _ (mem_of_field? found)
      cases same
      exact fresh listed
  · rintro ⟨only, absent⟩ entry member
    obtain ⟨key, listed, same⟩ := only entry member
    rcases List.mem_cons.1 listed with rfl | listed
    · have present : (text key, entry.2) ∈ entries := by rwa [← same]
      exact absurd (given_of_mem present) absent
    · exact ⟨key, listed, same⟩

theorem schemaKey_of_given (given : Given entries "schema") : schemaKey entries = "schema" := by
  obtain ⟨value, found⟩ := given
  simp [schemaKey, found]

theorem schemaKey_of_not_given (absent : ¬ Given entries "schema") :
    schemaKey entries = "schema_" := by
  have none : field? entries "schema" = none :=
    Option.eq_none_iff_forall_ne_some.2 fun value found => absent ⟨value, found⟩
  simp [schemaKey, none]

/-- Since one of the two names of the schema counts, the other is no field. -/
theorem onlyKeys_headingKeys {more : List String} (plain : "schema" ∉ more)
    (underscored : "schema_" ∉ more) :
    OnlyKeys (headingKeys entries ++ more) entries ↔
      OnlyKeys (["schema", "schema_", "name", "comment"] ++ more) entries ∧
        ¬ (Given entries "schema" ∧ Given entries "schema_") := by
  by_cases given : Given entries "schema"
  · have fresh : "schema_" ∉ ["schema", "name", "comment"] ++ more := by simp [underscored]
    rw [headingKeys, schemaKey_of_given given, onlyKeys_iff_of_fresh fresh]
    simp only [given, true_and]
    refine and_congr_left' ⟨fun only => only.mono ?_, fun only => only.mono ?_⟩ <;> grind
  · have fresh : "schema" ∉ ["schema_", "name", "comment"] ++ more := by simp [plain]
    rw [headingKeys, schemaKey_of_not_given given, onlyKeys_iff_of_fresh fresh]
    simp [given]

theorem mayHold_of_not_given {name : String} {form : Value → Prop} (absent : ¬ Given entries name) :
    MayHold entries name form := fun value found => absurd ⟨value, found⟩ absent

theorem mayHold_schemaKey {form : Value → Prop}
    (once : ¬ (Given entries "schema" ∧ Given entries "schema_")) :
    MayHold entries (schemaKey entries) form ↔
      MayHold entries "schema" form ∧ MayHold entries "schema_" form := by
  by_cases given : Given entries "schema"
  · have absent : ¬ Given entries "schema_" := fun other => once ⟨given, other⟩
    simp [schemaKey_of_given given, mayHold_of_not_given absent]
  · simp [schemaKey_of_not_given given, mayHold_of_not_given given]

theorem accepts_checkHeading {more : List String} (json : (mapping entries).IsJson)
    (plain : "schema" ∉ more) (underscored : "schema_" ∉ more) :
    (checkHeading entries).Accepts ∧ OnlyKeys (headingKeys entries ++ more) entries ↔
      HeadingForm more entries := by
  rw [onlyKeys_headingKeys plain underscored]
  simp only [checkHeading, accepts_seq, accepts_map, acceptsJust_checkText.optional json,
    acceptsJust_checkIdentifier.required json, acceptsJust_checkIdentifier.optional json]
  constructor
  · rintro ⟨⟨⟨schemas, name⟩, comment⟩, keys, once⟩
    obtain ⟨schema, schema_⟩ := (mayHold_schemaKey once).1 schemas
    exact ⟨keys, once, schema, schema_, name, comment⟩
  · rintro ⟨keys, once, schema, schema_, name, comment⟩
    exact ⟨⟨⟨(mayHold_schemaKey once).2 ⟨schema, schema_⟩, name⟩, comment⟩, keys, once⟩

end

theorem acceptsJust_checkEnum : AcceptsJust checkEnum IsEnum := by
  refine acceptsJust_mapping fun entries json => ?_
  simp only [accepts_withFaults, accepts_seq, accepts_map, unknownKeys_eq_nil,
    acceptsJust_checkText.nonEmptyList.required json]
  rw [and_right_comm, accepts_checkHeading json (by simp) (by simp)]
  constructor
  · rintro ⟨heading, items⟩
    exact ⟨heading, items⟩
  · rintro ⟨heading, items⟩
    exact ⟨heading, items⟩

section

variable {α : Type} {check : Value → Checked α} {reads : Value → α → Prop}
  {entries : List (Value × Value)} {name : String}

def FindsRead (check : Value → Checked α) (reads : Value → α → Prop) : Prop :=
  ∀ value a, value.IsJson → check value = .valid a → reads value a

theorem FindsRead.required {a : α} (finds : FindsRead check reads) (json : (mapping entries).IsJson)
    (done : required entries name check = .valid a) :
    ∃ value, field? entries name = some value ∧ reads value a := by
  obtain ⟨value, found, checked⟩ := required_eq_valid.1 done
  exact ⟨value, found, finds value a (json.field found) checked⟩

theorem FindsRead.optional {default a : α} (finds : FindsRead check reads)
    (json : (mapping entries).IsJson) (done : optional entries name default check = .valid a) :
    ReadOr reads default (field? entries name) a := by
  unfold SchemaScript.optional at done
  cases found : field? entries name with
  | none =>
    simp only [found, valid.injEq] at done
    exact done.symm
  | some value =>
    simp only [found, within_eq_valid] at done
    exact finds value a (json.field found) done

theorem FindsRead.list (finds : FindsRead check reads) :
    FindsRead (checkList check) fun value as =>
      ∃ items, value = .list items ∧ List.Forall₂ reads items as := by
  intro value as json done
  obtain ⟨items, found, each⟩ := checkList_eq_valid.1 done
  obtain rfl := json.items?_eq_some.1 found
  refine ⟨items, rfl, ?_⟩
  rw [List.forall₂_iff_get] at each ⊢
  exact ⟨each.1, fun i h h' => finds _ _ (json.item (List.get_mem _ _)) (each.2 i h h')⟩

theorem FindsRead.nonEmptyList (finds : FindsRead check reads) :
    FindsRead (checkNonEmptyList check) fun value as =>
      ∃ items, value = .list items ∧ List.Forall₂ reads items as.1 := fun value as json done =>
  finds.list value as.1 json (checkNonEmptyList_eq_valid.1 done)

theorem findsRead_checkText : FindsRead checkText ReadsText := fun _ _ json =>
  (checkText_eq_valid json).1

theorem findsRead_checkIdentifier : FindsRead checkIdentifier ReadsName := fun _ _ json =>
  (checkIdentifier_eq_valid json).1

theorem findsRead_checkBoolean : FindsRead checkBoolean StandsFor := fun _ _ json =>
  (checkBoolean_eq_valid json).1

end

theorem findsRead_mapping {α : Type} {part : Part} {check : List (Value × Value) → Checked α}
    {reads : List (Value × Value) → α → Prop}
    (finds : ∀ entries a, (mapping entries).IsJson → check entries = .valid a → reads entries a) :
    FindsRead (fun value => checkMapping part value check)
      fun value a => ∃ entries, value = .mapping entries ∧ reads entries a := by
  intro value a json done
  obtain ⟨entries, rfl, done⟩ := checkMapping_eq_valid.1 done
  exact ⟨entries, rfl, finds entries a json done⟩

theorem findsRead_checkColumn : FindsRead checkColumn ReadsColumn := by
  refine findsRead_mapping fun entries column json done => ?_
  simp only [withFaults_eq_valid, seq_eq_valid, map_eq_valid] at done
  obtain ⟨⟨_, identity, ⟨_, comment, ⟨_, nullable, ⟨_, name, ⟨type, hasType, rfl⟩, hasName, rfl⟩,
    hasNullable, rfl⟩, hasComment, rfl⟩, hasIdentity, rfl⟩, -⟩ := done
  obtain ⟨_, foundType, rfl⟩ := findsRead_checkText.required json hasType
  obtain ⟨_, foundName, rfl⟩ := findsRead_checkIdentifier.required json hasName
  exact
    { type := ⟨type, foundType, rfl⟩
      name := foundName
      nullable := findsRead_checkBoolean.optional json hasNullable
      comment := findsRead_checkText.optional json hasComment
      identity := findsRead_checkBoolean.optional json hasIdentity }

theorem findsRead_checkOptions : FindsRead checkOptions ReadsOptions := by
  refine findsRead_mapping fun entries options json done => ?_
  simp only [withFaults_eq_valid, map_eq_valid] at done
  obtain ⟨⟨unlogged, hasUnlogged, rfl⟩, -⟩ := done
  exact findsRead_checkBoolean.optional json hasUnlogged

theorem readFrom_of_checkHeading {entries : List (Value × Value)} {heading : Heading}
    (json : (mapping entries).IsJson) (done : checkHeading entries = .valid heading) :
    heading.ReadFrom entries := by
  simp only [checkHeading, seq_eq_valid, map_eq_valid] at done
  obtain ⟨_, comment, ⟨_, name, ⟨schema, hasSchema, rfl⟩, hasName, rfl⟩, hasComment, rfl⟩ := done
  obtain ⟨_, foundName, rfl⟩ := findsRead_checkIdentifier.required json hasName
  have read := findsRead_checkIdentifier.optional json hasSchema
  refine ⟨?_, foundName, findsRead_checkText.optional json hasComment, json.isUnicode⟩
  cases plain : field? entries "schema" with
  | some value =>
    rw [schemaKey_of_given ⟨value, plain⟩, plain] at read
    exact read
  | none =>
    rw [schemaKey_of_not_given (by simp [Given, plain])] at read
    exact read

theorem findsRead_checkEnum : FindsRead checkEnum ReadsEnum := by
  refine findsRead_mapping fun entries enum json done => ?_
  simp only [withFaults_eq_valid, seq_eq_valid, map_eq_valid] at done
  obtain ⟨⟨_, labels, ⟨heading, hasHeading, rfl⟩, hasLabels, rfl⟩, -⟩ := done
  obtain ⟨_, found, items, rfl, each⟩ := findsRead_checkText.nonEmptyList.required json hasLabels
  refine ⟨readFrom_of_checkHeading json hasHeading, ?_⟩
  have same : items = labels.1.map Value.text := by
    simpa only [List.forall₂_eq_eq_eq] using
      List.forall₂_map_right_iff (R := (· = ·)).2 each
  rw [found, same]

theorem isValid_compositeOf {heading : Heading} {columns : List Column}
    {composite : CompositeType} (done : compositeOf heading columns = .valid composite) :
    composite.toHeading = heading ∧ composite.columns = columns := by
  unfold compositeOf at done
  split at done
  · cases done
    exact ⟨rfl, rfl⟩
  · cases done

theorem findsRead_checkComposite : FindsRead checkComposite ReadsComposite := by
  refine findsRead_mapping fun entries composite json done => ?_
  simp only [andThen_eq_valid, withFaults_eq_valid, seq_eq_valid, map_eq_valid] at done
  obtain ⟨_, ⟨⟨_, columns, ⟨heading, hasHeading, rfl⟩, hasColumns, rfl⟩, -⟩, made⟩ := done
  obtain ⟨rfl, rfl⟩ := isValid_compositeOf made
  exact ⟨readFrom_of_checkHeading json hasHeading,
    findsRead_checkColumn.list.optional json hasColumns⟩

theorem isValid_tableOf {heading : Heading} {options : TableOptions}
    {columns : { columns : List Column // columns ≠ [] }} {table : Table}
    (done : tableOf heading options columns = .valid table) :
    table.toHeading = heading ∧ table.options = options ∧ table.columns = columns.1 := by
  unfold tableOf at done
  split at done
  · cases done
    exact ⟨rfl, rfl, rfl⟩
  · cases done

theorem findsRead_checkTable : FindsRead checkTable ReadsTable := by
  refine findsRead_mapping fun entries table json done => ?_
  simp only [andThen_eq_valid, withFaults_eq_valid, seq_eq_valid, map_eq_valid] at done
  obtain ⟨_, ⟨⟨_, columns, ⟨_, options, ⟨heading, hasHeading, rfl⟩, hasOptions, rfl⟩, hasColumns,
    rfl⟩, -⟩, made⟩ := done
  obtain ⟨rfl, rfl, same⟩ := isValid_tableOf made
  obtain ⟨value, found, items, rfl, each⟩ :=
    findsRead_checkColumn.nonEmptyList.required json hasColumns
  exact ⟨readFrom_of_checkHeading json hasHeading,
    findsRead_checkOptions.optional json hasOptions, _, found, items, rfl, same ▸ each⟩

theorem Value.StandsFor.unique {value : Value} {first second : Bool} (json : value.IsJson)
    (here : value.StandsFor first) (there : value.StandsFor second) : first = second := by
  have same := (checkBoolean_eq_valid json).2 there
  rw [(checkBoolean_eq_valid json).2 here] at same
  cases same
  rfl

theorem isFlagged_iff {value : Value} {column : Column} (json : value.IsJson)
    (read : ReadsColumn value column) : IsFlagged value ↔ column.identity = true := by
  obtain ⟨entries, rfl, read⟩ := read
  have identity := read.identity
  constructor
  · rintro ⟨_, flag, ⟨⟩, found, stands⟩
    rw [found] at identity
    exact StandsFor.unique (json.field found) identity stands
  · intro set
    cases found : field? entries "identity" with
    | none =>
      rw [found] at identity
      cases set.symm.trans identity
    | some flag =>
      rw [found, set] at identity
      exact ⟨entries, flag, rfl, found, identity⟩

theorem isIdentity_iff {value : Value} {column : Column} (json : value.IsJson)
    (read : ReadsColumn value column) : IsIdentity value ↔ column.isIdentity = true := by
  rw [IsIdentity, isFlagged_iff json read, Column.isIdentity, Bool.or_eq_true, beq_iff_eq]
  refine or_congr_right ?_
  obtain ⟨entries, rfl, read⟩ := read
  constructor
  · rintro ⟨_, ⟨⟩, found⟩
    simpa using read.name.symm.trans found
  · intro named
    exact ⟨entries, rfl, named ▸ read.name⟩

section

variable {α β : Type} {R : α → β → Prop} {p : α → Prop} {q : β → Prop} {as : List α} {bs : List β}

theorem forall_iff_of_forall₂ (each : List.Forall₂ R as bs)
    (same : ∀ a ∈ as, ∀ b, R a b → (p a ↔ q b)) : (∀ a ∈ as, p a) ↔ ∀ b ∈ bs, q b := by
  induction each with
  | nil => simp
  | cons here _ ih =>
    rw [List.forall_mem_cons, List.forall_mem_cons, same _ List.mem_cons_self _ here,
      ih fun a member => same a (List.mem_cons_of_mem _ member)]

theorem pairwise_iff_of_forall₂ (each : List.Forall₂ R as bs)
    (same : ∀ a ∈ as, ∀ b, R a b → (p a ↔ q b)) :
    (as.Pairwise fun a a' => ¬ (p a ∧ p a')) ↔ bs.Pairwise fun b b' => ¬ (q b ∧ q b') := by
  induction each with
  | nil => simp
  | cons here rest ih =>
    have same' := fun a member => same a (List.mem_cons_of_mem _ member)
    rw [List.pairwise_cons, List.pairwise_cons, ih same', same _ List.mem_cons_self _ here,
      forall_iff_of_forall₂ rest fun a member b read => not_congr
        (and_congr_right' (same' a member b read))]

theorem length_filter_le_one_iff {p : α → Bool} :
    (as.filter p).length ≤ 1 ↔ as.Pairwise fun a b => ¬ (p a = true ∧ p b = true) := by
  have few : ∀ kept : List α, kept.length ≤ 1 ↔ kept.Pairwise fun _ _ => False
    | [] => by simp
    | [a] => by simp
    | a :: b :: rest => by
      refine iff_of_false (by simp) fun each => ?_
      exact (List.pairwise_cons.1 each).1 b List.mem_cons_self
  rw [few, List.pairwise_filter]
  simp

end

theorem accepts_compositeOf {heading : Heading} {columns : List Column} :
    (compositeOf heading columns).Accepts ↔ ∀ column ∈ columns, column.identity = false := by
  unfold compositeOf
  split
  · next plain => exact iff_of_true (accepts_valid _) plain
  · next plain => exact iff_of_false (not_accepts_fault _) plain

theorem accepts_tableOf {heading : Heading} {options : TableOptions}
    {columns : { columns : List Column // columns ≠ [] }} :
    (tableOf heading options columns).Accepts ↔
      columns.1.Pairwise fun a b => ¬ (a.isIdentity = true ∧ b.isIdentity = true) := by
  rw [← length_filter_le_one_iff]
  unfold tableOf
  split
  · next few => exact iff_of_true (accepts_valid _) few
  · next few => exact iff_of_false (not_accepts_fault _) few

section

variable {entries : List (Value × Value)} {columns : List Column}

theorem forall_identity_eq_false_iff (json : (mapping entries).IsJson)
    (read : ReadOr ReadsColumns [] (field? entries "columns") columns) :
    (∀ column ∈ columns, column.identity = false) ↔
      MayHold entries "columns" (IsListOf fun column => ¬ IsFlagged column) := by
  unfold MayHold
  cases found : field? entries "columns" with
  | none =>
    rw [found] at read
    cases read
    simp
  | some value =>
    rw [found] at read
    obtain ⟨items, rfl, each⟩ := read
    have json := json.field found
    simp only [Option.some.injEq, IsListOf, forall_eq', list.injEq, exists_eq_left']
    refine (forall_iff_of_forall₂ each fun item member column read => ?_).symm
    rw [isFlagged_iff (json.item member) read, Bool.not_eq_true]

theorem pairwise_isIdentity_iff {items : List Value} (json : (Value.list items).IsJson)
    (each : List.Forall₂ ReadsColumn items columns) :
    (columns.Pairwise fun a b => ¬ (a.isIdentity = true ∧ b.isIdentity = true)) ↔
      items.Pairwise fun first second => ¬ (IsIdentity first ∧ IsIdentity second) :=
  (pairwise_iff_of_forall₂ each fun _ member _ => isIdentity_iff (json.item member)).symm

end

theorem acceptsJust_checkComposite : AcceptsJust checkComposite IsComposite := by
  refine acceptsJust_mapping fun entries json => ?_
  simp only [accepts_andThen, accepts_compositeOf, withFaults_eq_valid, seq_eq_valid, map_eq_valid]
  -- The rule on identity is one on what was read, so the columns found are traced back to what
  -- they were read from.
  constructor
  · rintro ⟨_, ⟨⟨_, columns, ⟨heading, hasHeading, rfl⟩, hasColumns, rfl⟩, keys⟩, plain⟩
    have read := findsRead_checkColumn.list.optional json hasColumns
    exact
      { toHeadingForm := (accepts_checkHeading json (by simp) (by simp)).1
          ⟨⟨heading, hasHeading⟩, unknownKeys_eq_nil.1 keys⟩
        columns := (acceptsJust_checkColumn.list.optional json).1 ⟨columns, hasColumns⟩
        no_identity := (forall_identity_eq_false_iff json read).1 plain }
  · intro form
    obtain ⟨⟨heading, hasHeading⟩, keys⟩ :=
      (accepts_checkHeading json (by simp) (by simp)).2 form.toHeadingForm
    have listed : (optional entries "columns" [] (checkList checkColumn)).Accepts :=
      (acceptsJust_checkColumn.list.optional json).2 form.columns
    obtain ⟨columns, hasColumns⟩ := listed
    have read := findsRead_checkColumn.list.optional json hasColumns
    exact ⟨(heading, columns),
      ⟨⟨_, columns, ⟨heading, hasHeading, rfl⟩, hasColumns, rfl⟩, unknownKeys_eq_nil.2 keys⟩,
      (forall_identity_eq_false_iff json read).2 form.no_identity⟩

theorem acceptsJust_checkTable : AcceptsJust checkTable IsTable := by
  refine acceptsJust_mapping fun entries json => ?_
  simp only [accepts_andThen, accepts_tableOf, withFaults_eq_valid, seq_eq_valid, map_eq_valid]
  constructor
  · rintro ⟨_, ⟨⟨_, columns, ⟨_, options, ⟨heading, hasHeading, rfl⟩, hasOptions, rfl⟩, hasColumns,
      rfl⟩, keys⟩, few⟩
    obtain ⟨_, found, items, rfl, each⟩ :=
      findsRead_checkColumn.nonEmptyList.required json hasColumns
    have few := (pairwise_isIdentity_iff (json.field found) each).1 few
    exact
      { toHeadingForm := (accepts_checkHeading json (by simp) (by simp)).1
          ⟨⟨heading, hasHeading⟩, unknownKeys_eq_nil.1 keys⟩
        options := (acceptsJust_checkOptions.optional json).1 ⟨options, hasOptions⟩
        columns := (acceptsJust_checkColumn.nonEmptyList.required json).1 ⟨columns, hasColumns⟩
        one_identity := by
          intro value found'
          cases found.symm.trans found'
          exact ⟨items, rfl, few⟩ }
  · intro form
    obtain ⟨⟨heading, hasHeading⟩, keys⟩ :=
      (accepts_checkHeading json (by simp) (by simp)).2 form.toHeadingForm
    have optioned : (optional entries "options" ⟨false⟩ checkOptions).Accepts :=
      (acceptsJust_checkOptions.optional json).2 form.options
    obtain ⟨options, hasOptions⟩ := optioned
    obtain ⟨columns, hasColumns⟩ :=
      (acceptsJust_checkColumn.nonEmptyList.required json).2 form.columns
    obtain ⟨_, found, items, rfl, each⟩ :=
      findsRead_checkColumn.nonEmptyList.required json hasColumns
    obtain ⟨_, ⟨⟩, few⟩ := form.one_identity _ found
    exact ⟨(heading, options, columns),
      ⟨⟨_, columns, ⟨_, options, ⟨heading, hasHeading, rfl⟩, hasOptions, rfl⟩, hasColumns, rfl⟩,
        unknownKeys_eq_nil.2 keys⟩,
      (pairwise_isIdentity_iff (json.field found) each).2 few⟩

/-- The checks of definitions accept a value exactly where its form is right, and then read from it
what it says. -/
structure Value.ChecksByForm (value : Value) : Prop where
  enum_accepts : (checkEnum value).Accepts ↔ IsEnum value
  enum_reads : ∀ enum, checkEnum value = .valid enum → ReadsEnum value enum
  composite_accepts : (checkComposite value).Accepts ↔ IsComposite value
  composite_reads : ∀ composite, checkComposite value = .valid composite →
    ReadsComposite value composite
  table_accepts : (checkTable value).Accepts ↔ IsTable value
  table_reads : ∀ table, checkTable value = .valid table → ReadsTable value table

theorem Value.checksByForm_of_isJson (value : Value) (json : value.IsJson) :
    value.ChecksByForm where
  enum_accepts := acceptsJust_checkEnum value json
  enum_reads enum := findsRead_checkEnum value enum json
  composite_accepts := acceptsJust_checkComposite value json
  composite_reads composite := findsRead_checkComposite value composite json
  table_accepts := acceptsJust_checkTable value json
  table_reads table := findsRead_checkTable value table json

namespace Sample

def measures : Value :=
  .mapping [(.text "name", .text "measures"), (.text "schema_", .text "sales"),
    (.text "options", .mapping [(.text "unlogged", .integer 1)]),
    (.text "columns", .list [
      .mapping [(.text "type", .text "bigint"), (.text "name", .text "number"),
        (.text "identity", .text "YES")],
      .mapping [(.text "name", .text "unit"), (.text "type", .text "$sales.unit"),
        (.text "nullable", .boolean false)]])]

theorem checksByForm_measures :
    measures.IsJson ∧ measures.ChecksByForm ∧ IsTable measures ∧ ¬ IsComposite measures := by
  have json : measures.IsJson := by simp [measures]
  have checks := measures.checksByForm_of_isJson json
  have table : (checkTable measures).Accepts := ⟨_, rfl⟩
  have composite : ¬ (checkComposite measures).Accepts := nofun
  exact ⟨json, checks, checks.table_accepts.1 table, fun form =>
    composite (checks.composite_accepts.2 form)⟩

end Sample

end SchemaScript
