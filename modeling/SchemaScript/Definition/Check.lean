import SchemaScript.Definition
import SchemaScript.Definition.Fault
import SchemaScript.Text.Encoding
import SchemaScript.Value

/-!
From values to definitions. Faults come in the order in which a definition lists its fields, then
the unknown keys in the order of the mapping; the rules on identity columns are looked at only
where the fields and keys are sound.
-/

namespace SchemaScript

open Text

def bytesText? (bytes : List UInt8) : Option String :=
  match Utf8.decode bytes.toByteArray with
  | .ok chars => some (String.ofList chars)
  | .error _ => none

/-- Code points as text, with a replacement character for each lone surrogate. -/
def mended (codes : List Nat) : String :=
  String.ofList (codes.map fun n => if n.isValidChar then Char.ofNat n else '\uFFFD')

def checkText : Value → Checked String
  | .text value => .valid value
  | .bytes value =>
    match bytesText? value with
    | some value => .valid value
    | none => .fault .brokenText
  | .brokenText codes => .valid (mended codes)
  | _ => .fault .notText

def identifierOf (text : String) : Checked Identifier :=
  match Identifier.ofText? text with
  | some name => .valid name
  | none => .fault .notIdentifier

/-- Only Unicode text is compared with the pattern of names. -/
def checkIdentifier : Value → Checked Identifier
  | .brokenText _ => .fault .brokenText
  | value => (checkText value).andThen identifierOf

def trueWords : List String := ["1", "on", "t", "true", "y", "yes"]

def falseWords : List String := ["0", "off", "f", "false", "n", "no"]

def wordBoolean (word : String) : Checked Bool :=
  let lower := String.ofList (word.toList.map Char.toLower)
  if trueWords.contains lower then .valid true
  else if falseWords.contains lower then .valid false
  else .fault .unclearBoolean

def greatestWord : Int := 9223372036854775807

/-- Nought and one are truth values, other numbers of 64 bits are unclear, and larger ones are no
candidates at all. -/
def numberBoolean (least greatest n : Int) : Checked Bool :=
  if n < least || greatest < n then .fault .notBoolean
  else if n = 0 then .valid false
  else if n = 1 then .valid true
  else .fault .unclearBoolean

def checkBoolean : Value → Checked Bool
  | .boolean value => .valid value
  | .text value => wordBoolean value
  | .bytes value =>
    match bytesText? value with
    | some value => wordBoolean value
    | none => .fault .unclearBoolean
  | .brokenText _ => .fault .brokenText
  | .integer value => numberBoolean (-greatestWord - 1) greatestWord value
  | .real value =>
    match value.integral? with
    | some n => numberBoolean (-greatestWord) greatestWord n
    | none => .fault .notBoolean
  | _ => .fault .notBoolean

def items? : Value → Option (List Value)
  | .list items => some items
  | .pair first second => some [first, second]
  | .set items => some items
  | _ => none

def checkItems {α : Type} (check : Value → Checked α) (index : Nat) :
    List Value → Checked (List α)
  | [] => .valid []
  | item :: items =>
    List.cons <$> (check item).within (toString index) <*> checkItems check (index + 1) items

def checkList {α : Type} (check : Value → Checked α) (value : Value) : Checked (List α) :=
  match items? value with
  | some items => checkItems check 0 items
  | none => .fault .notList

def checkNonEmptyList {α : Type} (check : Value → Checked α) (value : Value) :
    Checked { items : List α // items ≠ [] } :=
  (checkList check value).andThen fun items =>
    if h : items ≠ [] then .valid ⟨items, h⟩ else .fault .emptyList

def checkMapping {α : Type} (part : Part) (value : Value)
    (check : List (Value × Value) → Checked α) : Checked α :=
  match value with
  | .mapping entries => check entries
  | _ => .fault (.notMapping part)

def required {α : Type} (entries : List (Value × Value)) (name : String)
    (check : Value → Checked α) : Checked α :=
  match Value.field? entries name with
  | some value => (check value).within name
  | none => .faulty [⟨[name], .missing⟩]

def optional {α : Type} (entries : List (Value × Value)) (name : String) (default : α)
    (check : Value → Checked α) : Checked α :=
  match Value.field? entries name with
  | some value => (check value).within name
  | none => .valid default

def keyFault? (known : List String) (key : Value) : Option Fault :=
  match key with
  | .text name => if known.contains name then none else some ⟨[name], .unknownKey⟩
  | key => some ⟨[key.pathPart], .keyNotText⟩

def unknownKeys (known : List String) (entries : List (Value × Value)) : List Fault :=
  entries.filterMap fun entry => keyFault? known entry.1

def columnKeys : List String := ["type", "name", "nullable", "comment", "identity"]

def checkColumn (value : Value) : Checked Column :=
  checkMapping .column value fun entries =>
    Checked.withFaults
      ((fun type name nullable comment identity =>
          ⟨ColumnType.parse type, name, nullable, comment, identity⟩) <$>
        required entries "type" checkText <*>
        required entries "name" checkIdentifier <*>
        optional entries "nullable" true checkBoolean <*>
        optional entries "comment" "" checkText <*>
        optional entries "identity" false checkBoolean)
      (unknownKeys columnKeys entries)

def checkOptions (value : Value) : Checked TableOptions :=
  checkMapping .options value fun entries =>
    Checked.withFaults
      (TableOptions.mk <$> optional entries "unlogged" false checkBoolean)
      (unknownKeys ["unlogged"] entries)

def defaultSchema : Identifier := ⟨"public", by decide⟩

/-- The schema may go by a second name, which counts where the first is absent. -/
def schemaKey (entries : List (Value × Value)) : String :=
  if (Value.field? entries "schema").isSome then "schema" else "schema_"

def headingKeys (entries : List (Value × Value)) : List String :=
  [schemaKey entries, "name", "comment"]

def checkHeading (entries : List (Value × Value)) : Checked Heading :=
  (fun schema name comment => ⟨schema, name, comment, Value.entriesAreUnicode entries⟩) <$>
    optional entries (schemaKey entries) defaultSchema checkIdentifier <*>
    required entries "name" checkIdentifier <*>
    optional entries "comment" "" checkText

def checkEnum (value : Value) : Checked EnumType :=
  checkMapping .enum value fun entries =>
    Checked.withFaults
      ((fun heading labels => ⟨heading, labels.1, labels.2⟩) <$>
        checkHeading entries <*>
        required entries "items" (checkNonEmptyList checkText))
      (unknownKeys (headingKeys entries ++ ["items"]) entries)

def columnNames (columns : List Column) : List String := columns.map (·.name.text)

def compositeOf (heading : Heading) (columns : List Column) : Checked CompositeType :=
  if h : ∀ column ∈ columns, column.identity = false then .valid ⟨heading, columns, h⟩
  else
    .fault (.identityInComposite heading.qualifiedName.text
      (columnNames (columns.filter (·.identity))))

def checkComposite (value : Value) : Checked CompositeType :=
  checkMapping .composite value fun entries =>
    (Checked.withFaults
      ((·, ·) <$>
        checkHeading entries <*>
        optional entries "columns" [] (checkList checkColumn))
      (unknownKeys (headingKeys entries ++ ["columns"]) entries)).andThen fun (heading, columns) =>
        compositeOf heading columns

def tableOf (heading : Heading) (options : TableOptions)
    (columns : { columns : List Column // columns ≠ [] }) : Checked Table :=
  if h : (columns.1.filter (·.isIdentity)).length ≤ 1 then
    .valid ⟨heading, options, columns.1, columns.2, h⟩
  else
    .fault (.severalIdentities heading.qualifiedName.text
      (columnNames (columns.1.filter (·.isIdentity))))

def checkTable (value : Value) : Checked Table :=
  checkMapping .table value fun entries =>
    (Checked.withFaults
      ((·, ·, ·) <$>
        checkHeading entries <*>
        optional entries "options" ⟨false⟩ checkOptions <*>
        required entries "columns" (checkNonEmptyList checkColumn))
      (unknownKeys (headingKeys entries ++ ["options", "columns"]) entries)).andThen
        fun (heading, options, columns) => tableOf heading options columns

def isNull : Value → Bool
  | .null => true
  | _ => false

/-- A section without a value is an empty section. -/
def checkCollection (value : Value) : Checked Collection :=
  checkMapping .collection value fun entries =>
    let entries := entries.filter fun entry => !isNull entry.2
    Checked.withFaults
      (Collection.mk <$>
        optional entries "tables" [] (checkList checkTable) <*>
        optional entries "composites" [] (checkList checkComposite) <*>
        optional entries "enums" [] (checkList checkEnum))
      (unknownKeys ["tables", "composites", "enums"] entries)

end SchemaScript
