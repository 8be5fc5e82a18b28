import SchemaScript.Text.Quoted

/-!
What can be wrong with a document, and checks that collect every fault instead of stopping at the
first.
-/

namespace SchemaScript

inductive Part
  | column
  | options
  | enum
  | composite
  | table
  | collection
deriving DecidableEq, Repr

def Part.text : Part → String
  | .column => "ColumnDefinition"
  | .options => "TableOptions"
  | .enum => "EnumDefinition"
  | .composite => "CompositeDefinition"
  | .table => "TableDefinition"
  | .collection => "DefinitionCollection"

inductive Reason
  | missing
  | unknownKey
  | keyNotText
  | notText
  | brokenText
  | notIdentifier
  | notBoolean
  | unclearBoolean
  | notList
  | emptyList
  | notMapping (part : Part)
  | identityInComposite (name : String) (columns : List String)
  | severalIdentities (name : String) (columns : List String)
deriving DecidableEq, Repr

namespace Reason

def code : Reason → String
  | .missing => "missing"
  | .unknownKey => "extra_forbidden"
  | .keyNotText => "invalid_key"
  | .notText => "string_type"
  | .brokenText => "string_unicode"
  | .notIdentifier => "string_pattern_mismatch"
  | .notBoolean => "bool_type"
  | .unclearBoolean => "bool_parsing"
  | .notList => "list_type"
  | .emptyList => "too_short"
  | .notMapping _ => "model_type"
  | .identityInComposite _ _ => "value_error"
  | .severalIdentities _ _ => "value_error"

def message : Reason → String
  | .missing => "Field required"
  | .unknownKey => "Extra inputs are not permitted"
  | .keyNotText => "Keys should be strings"
  | .notText => "Input should be a valid string"
  | .brokenText =>
    "Input should be a valid string, unable to parse raw data as a unicode string"
  | .notIdentifier => "String should match pattern '^[A-Za-z0-9_]+$'"
  | .notBoolean => "Input should be a valid boolean"
  | .unclearBoolean => "Input should be a valid boolean, unable to interpret input"
  | .notList => "Input should be a valid list"
  | .emptyList => "List should have at least 1 item after validation, not 0"
  | .notMapping part => "Input should be a valid dictionary or instance of " ++ part.text
  | .identityInComposite name columns =>
    "Value error, Composite " ++ name ++ " cannot have identity columns: " ++
      Text.quotedList columns
  | .severalIdentities name columns =>
    "Value error, Table " ++ name ++ " has multiple identity columns: " ++
      Text.quotedList columns

end Reason

structure Fault where
  path : List String
  reason : Reason
deriving DecidableEq, Repr

def Fault.location (fault : Fault) : String := ".".intercalate fault.path

def Fault.within (part : String) (fault : Fault) : Fault := ⟨part :: fault.path, fault.reason⟩

/-- A result, or all faults found on the way to it. -/
inductive Checked (α : Type)
  | valid (value : α)
  | faulty (faults : List Fault)
deriving Repr

namespace Checked

variable {α β : Type}

def fault (reason : Reason) : Checked α := .faulty [⟨[], reason⟩]

def faults : Checked α → List Fault
  | .valid _ => []
  | .faulty faults => faults

def map (f : α → β) : Checked α → Checked β
  | .valid value => .valid (f value)
  | .faulty faults => .faulty faults

def both (f : Checked (α → β)) (x : Checked α) : Checked β :=
  match f, x with
  | .valid f, .valid value => .valid (f value)
  | .valid _, .faulty faults => .faulty faults
  | .faulty faults, x => .faulty (faults ++ x.faults)

instance : Applicative Checked where
  pure := .valid
  map := map
  seq f x := both f (x ())

/-- A further check, made only where the first found nothing. -/
def andThen (x : Checked α) (f : α → Checked β) : Checked β :=
  match x with
  | .valid value => f value
  | .faulty faults => .faulty faults

def within (part : String) : Checked α → Checked α
  | .valid value => .valid value
  | .faulty faults => .faulty (faults.map (·.within part))

def withFaults (x : Checked α) (more : List Fault) : Checked α :=
  match x, more with
  | .valid value, [] => .valid value
  | .valid _, more => .faulty more
  | .faulty faults, more => .faulty (faults ++ more)

theorem seq_eq_valid {f : Checked (α → β)} {x : Checked α} {b : β} :
    f <*> x = valid b ↔ ∃ g a, f = valid g ∧ x = valid a ∧ g a = b := by
  constructor
  · intro h
    cases f <;> cases x <;> simp_all [Seq.seq, both]
  · rintro ⟨g, a, rfl, rfl, rfl⟩
    rfl

theorem map_eq_valid {f : α → β} {x : Checked α} {b : β} :
    f <$> x = valid b ↔ ∃ a, x = valid a ∧ f a = b := by
  cases x <;> simp [Functor.map, map]

@[simp] theorem andThen_eq_valid {x : Checked α} {f : α → Checked β} {b : β} :
    x.andThen f = valid b ↔ ∃ a, x = valid a ∧ f a = valid b := by
  cases x <;> simp [andThen]

@[simp] theorem within_eq_valid {part : String} {x : Checked α} {a : α} :
    x.within part = valid a ↔ x = valid a := by
  cases x <;> simp [within]

@[simp] theorem withFaults_eq_valid {x : Checked α} {more : List Fault} {a : α} :
    x.withFaults more = valid a ↔ x = valid a ∧ more = [] := by
  cases x <;> cases more <;> simp [withFaults]

end Checked

end SchemaScript
