import SchemaScript.SqlObject

/-!
What a definition says: its kind and name, the labels of an enumeration, the columns with what a
table promises about each, and the comments. Layout is no part of it.
-/

namespace SchemaScript

theorem Identifier.not_mem (name : Identifier) {c : Char} (foreign : isIdentifierChar c = false) :
    c ∉ name.text.toList := by
  intro found
  have wellFormed := name.wellFormed
  simp only [isIdentifier, Bool.and_eq_true, List.all_eq_true] at wellFormed
  exact absurd (wellFormed.2 c found) (by simp [foreign])

theorem QualifiedName.not_mem (name : QualifiedName) {c : Char}
    (foreign : isIdentifierChar c = false) (other : c ≠ '.') : c ∉ name.text.toList := by
  have schema := name.schema.not_mem foreign
  have own := name.name.not_mem foreign
  have dot : ".".toList = ['.'] := rfl
  simp [QualifiedName.text, dot, schema, own, other]

structure ColumnDescription where
  name : String
  type : String
  constraint : Sql.Constraint
deriving DecidableEq, Repr

structure Description where
  kind : ObjectKind
  name : String
  labels : List String
  unlogged : Bool
  columns : List ColumnDescription
  comment : String
  columnComments : List (String × String)
deriving DecidableEq, Repr

namespace SqlObject

def labels : SqlObject → List String
  | .enum definition => definition.labels
  | _ => []

def unlogged : SqlObject → Bool
  | .table definition => definition.options.unlogged
  | _ => false

def comment? : SqlObject → Option String
  | .schema _ => none
  | .enum definition => some definition.comment
  | .composite definition => some definition.comment
  | .table definition => some definition.comment

def commented (object : SqlObject) : List (String × String) :=
  (object.columns.filter fun column => !column.comment.isEmpty).map fun column =>
    (column.name.text, column.comment)

def constraintOn (object : SqlObject) (column : Column) : Sql.Constraint :=
  match object with
  | .table definition =>
    if definition.identityColumn? = some column then .identity
    else if column.nullable then .none
    else .notNull
  | _ => .none

def description (object : SqlObject) : Description where
  kind := object.kind
  name := object.name
  labels := object.labels
  unlogged := object.unlogged
  columns := object.columns.map fun column =>
    ⟨column.name.text, column.type.text, object.constraintOn column⟩
  comment := object.comment?.getD ""
  columnComments := object.commented

end SqlObject

theorem Table.identityColumn?_eq_some_iff {table : Table} {column : Column}
    (listed : column ∈ table.columns) :
    table.identityColumn? = some column ↔ column.isIdentity = true := by
  constructor
  · intro found
    exact List.find?_some found
  · intro identity
    obtain ⟨first, found⟩ : ∃ first, table.identityColumn? = some first :=
      Option.isSome_iff_exists.1 (List.find?_isSome.2 ⟨column, listed, identity⟩)
    have atMostOne := table.one_identity
    have here : column ∈ table.columns.filter (·.isIdentity) :=
      List.mem_filter.2 ⟨listed, identity⟩
    have there : first ∈ table.columns.filter (·.isIdentity) :=
      List.mem_filter.2 ⟨List.mem_of_find?_eq_some found, List.find?_some found⟩
    rw [found, Option.some.injEq]
    generalize table.columns.filter (·.isIdentity) = identities at atMostOne here there
    match identities, atMostOne with
    | [only], _ => rw [List.mem_singleton.1 here, List.mem_singleton.1 there]

theorem SqlObject.constraintOn_table {table : Table} {column : Column}
    (listed : column ∈ table.columns) :
    (SqlObject.table table).constraintOn column = .of column.isIdentity column.nullable := by
  simp only [constraintOn, Sql.Constraint.of, Table.identityColumn?_eq_some_iff listed]

end SchemaScript
