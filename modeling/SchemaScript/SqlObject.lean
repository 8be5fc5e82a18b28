import SchemaScript.Definition
import SchemaScript.Sql
import SchemaScript.Value

/-!
Objects of a database that a script creates: schemas, enumerated types, composite types and tables.
Each is known by its kind and its qualified name, and renders itself as statements.
-/

namespace SchemaScript

inductive ObjectKind
  | enum
  | composite
  | table
  | schema
deriving DecidableEq, Repr

namespace ObjectKind

def text : ObjectKind → String
  | .enum => "enum"
  | .composite => "composite"
  | .table => "table"
  | .schema => "schema"

def ofText? (text : String) : Option ObjectKind :=
  [ObjectKind.enum, .composite, .table, .schema].find? (·.text == text)

def hasColumns (kind : ObjectKind) : Bool := kind == .composite || kind == .table

def contents (kind : ObjectKind) : String := if kind.hasColumns then "columns" else "items"

end ObjectKind

inductive SqlObject
  | schema (name : String)
  | enum (definition : EnumType)
  | composite (definition : CompositeType)
  | table (definition : Table)
deriving DecidableEq, Repr

structure ObjectKey where
  kind : ObjectKind
  name : String
deriving DecidableEq, Repr

inductive ObjectError
  | notWrappable (type : String)
  | unknownKind (kind : String)
  | definitionNeeded (kind : ObjectKind)
  | notDroppable (kind : ObjectKind)
  | notWalkable
deriving DecidableEq, Repr

def ObjectError.message : ObjectError → String
  | .notWrappable type => "Cannot wrap " ++ type ++ " as a SQL object"
  | .unknownKind kind => "Unknown object kind: " ++ kind
  | .definitionNeeded kind => "'str' object has no attribute '" ++ kind.contents ++ "'"
  | .notDroppable kind => "DROP is only rendered for schemas, not " ++ kind.text
  | .notWalkable => "Schemas have no dependencies to walk"

namespace SqlObject

def kind : SqlObject → ObjectKind
  | .schema _ => .schema
  | .enum _ => .enum
  | .composite _ => .composite
  | .table _ => .table

def name : SqlObject → String
  | .schema name => name
  | .enum definition => definition.qualifiedName.text
  | .composite definition => definition.qualifiedName.text
  | .table definition => definition.qualifiedName.text

def key (object : SqlObject) : ObjectKey := ⟨object.kind, object.name⟩

/-- Whether a file can hold the statements of an object. -/
def isUnicode : SqlObject → Bool
  | .schema _ => true
  | .enum definition => definition.isUnicode
  | .composite definition => definition.isUnicode
  | .table definition => definition.isUnicode

def columns : SqlObject → List Column
  | .schema _ => []
  | .enum _ => []
  | .composite definition => definition.columns
  | .table definition => definition.columns

def ofValue : Value → Except ObjectError SqlObject
  | .text name => .ok (.schema name)
  | value => .error (.notWrappable value.typeName)

/-- An object known by its kind and name alone. Only a schema needs no more. -/
def ofKindText (kind name : String) : Except ObjectError SqlObject :=
  match ObjectKind.ofText? kind with
  | some .schema => .ok (.schema name)
  | some kind => .error (.definitionNeeded kind)
  | none => .error (.unknownKind kind)

def columnComments (name : String) (columns : List Column) : String :=
  String.join ((columns.filter fun column => !column.comment.isEmpty).map fun column =>
    Sql.commentOnColumn name column.name.text column.comment)

def attributeLine (column : Column) : String :=
  Sql.attributeLine column.name.text column.type.text

def columnLine (column : Column) : String :=
  Sql.columnLine column.name.text column.type.text
    (.of column.isIdentity column.nullable)

/-- The statements that create an object and comment on it. The object itself always gets a
comment, its columns only where they have one. -/
def create (object : SqlObject) : String :=
  match object with
  | .schema name => Sql.createSchema name
  | .enum definition =>
    Sql.createEnum object.name definition.labels ++
      Sql.commentOnType object.name definition.comment
  | .composite definition =>
    Sql.createComposite object.name (definition.columns.map attributeLine) ++
      Sql.commentOnType object.name definition.comment ++
      columnComments object.name definition.columns
  | .table definition =>
    Sql.createTable object.name (definition.columns.map columnLine)
        definition.options.unlogged ++
      Sql.commentOnTable object.name definition.comment ++
      columnComments object.name definition.columns

def drop (object : SqlObject) : Except ObjectError String :=
  match object with
  | .schema name => .ok (Sql.dropSchema name)
  | object => .error (.notDroppable object.kind)

def shown (object : SqlObject) : String :=
  "SqlObject(" ++ object.kind.text ++ ", " ++ object.name ++ ")"

end SqlObject

end SchemaScript
