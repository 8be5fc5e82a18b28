/-!
Definitions of enumerated types, composite types and tables. What every accepted definition
satisfies is part of its type: an enumeration has a label, a table has a column and at most one
identity column, and a composite type has none. Names are written into a script without quotes, so
they consist of letters, digits and underscores of ASCII. The type of a column that begins with a
dollar sign refers to another definition.
-/

namespace SchemaScript

inductive ColumnType
  | literal (text : String)
  | reference (name : String)
deriving DecidableEq, Repr

namespace ColumnType

/-- Splits off the dollar sign. Only the first one counts. -/
def parse (source : String) : ColumnType :=
  match source.toList with
  | '$' :: rest => .reference (String.ofList rest)
  | _ => .literal source

def text : ColumnType → String
  | .literal text => text
  | .reference name => name

def isReference : ColumnType → Bool
  | .literal _ => false
  | .reference _ => true

def source : ColumnType → String
  | .literal text => text
  | .reference name => "$" ++ name

theorem source_parse (written : String) : (parse written).source = written := by
  unfold parse
  split
  · next rest h =>
    apply String.toList_inj.1
    simp [source, h]
  · rfl

end ColumnType

def isIdentifierChar (c : Char) : Bool := c.isAlphanum || c == '_'

def isIdentifier (text : String) : Bool :=
  !text.toList.isEmpty && text.toList.all isIdentifierChar

structure Identifier where
  text : String
  wellFormed : isIdentifier text = true
deriving DecidableEq

instance : Repr Identifier := ⟨fun name _ => repr name.text⟩

def Identifier.ofText? (text : String) : Option Identifier :=
  if h : isIdentifier text = true then some ⟨text, h⟩ else none

theorem Identifier.ofText?_eq_some {text : String} {name : Identifier} :
    Identifier.ofText? text = some name ↔ text = name.text := by
  unfold Identifier.ofText?
  constructor
  · intro h
    split at h
    · cases h
      rfl
    · cases h
  · rintro rfl
    simp [name.wellFormed]

theorem Identifier.ext_text {a b : Identifier} (h : a.text = b.text) : a = b := by
  cases a
  cases b
  cases h
  rfl

theorem Identifier.dot_not_mem (name : Identifier) : '.' ∉ name.text.toList := by
  intro h
  have wellFormed := name.wellFormed
  simp only [isIdentifier, Bool.and_eq_true, List.all_eq_true] at wellFormed
  exact absurd (wellFormed.2 '.' h) (by decide)

structure QualifiedName where
  schema : Identifier
  name : Identifier
deriving DecidableEq, Repr

def QualifiedName.text (name : QualifiedName) : String :=
  name.schema.text ++ "." ++ name.name.text

theorem append_cons_injective {α : Type} {x : α} {as bs cs ds : List α}
    (ha : x ∉ as) (hb : x ∉ bs) (h : as ++ x :: cs = bs ++ x :: ds) : as = bs ∧ cs = ds := by
  induction as generalizing bs with
  | nil =>
    cases bs with
    | nil => simpa using h
    | cons b bs =>
      simp only [List.nil_append, List.cons_append, List.cons.injEq] at h
      exact absurd (List.mem_cons.2 (Or.inl h.1)) hb
  | cons a as ih =>
    cases bs with
    | nil =>
      simp only [List.nil_append, List.cons_append, List.cons.injEq] at h
      exact absurd (List.mem_cons.2 (Or.inl h.1.symm)) ha
    | cons b bs =>
      simp only [List.mem_cons, not_or, List.cons_append, List.cons.injEq] at ha hb h
      obtain ⟨rfl, rfl⟩ := ih ha.2 hb.2 h.2
      exact ⟨by rw [h.1], rfl⟩

/-- No identifier holds a dot, so the dot tells where the schema ends. -/
theorem QualifiedName.text_injective {a b : QualifiedName} (h : a.text = b.text) : a = b := by
  have dot : ".".toList = ['.'] := rfl
  have chars : a.schema.text.toList ++ '.' :: a.name.text.toList =
      b.schema.text.toList ++ '.' :: b.name.text.toList := by
    have same := congrArg String.toList h
    rw [QualifiedName.text, QualifiedName.text, String.toList_append, String.toList_append,
      String.toList_append, String.toList_append, dot, List.append_assoc, List.append_assoc] at same
    exact same
  obtain ⟨schema, name⟩ :=
    append_cons_injective a.schema.dot_not_mem b.schema.dot_not_mem chars
  obtain ⟨as, an⟩ := a
  obtain ⟨bs, bn⟩ := b
  obtain rfl := Identifier.ext_text (String.toList_inj.1 schema)
  obtain rfl := Identifier.ext_text (String.toList_inj.1 name)
  rfl

structure Column where
  type : ColumnType
  name : Identifier
  nullable : Bool
  comment : String
  identity : Bool
deriving DecidableEq, Repr

def Column.isIdentity (column : Column) : Bool := column.identity || column.name.text == "id"

/-- What every definition has. Where not all of its text is Unicode text, a replacement character
stands for each lone surrogate. -/
structure Heading where
  schema : Identifier
  name : Identifier
  comment : String
  isUnicode : Bool := true
deriving DecidableEq, Repr

def Heading.qualifiedName (heading : Heading) : QualifiedName := ⟨heading.schema, heading.name⟩

structure TableOptions where
  unlogged : Bool
deriving DecidableEq, Repr

structure EnumType extends Heading where
  labels : List String
  labels_ne_nil : labels ≠ []
deriving DecidableEq, Repr

structure CompositeType extends Heading where
  columns : List Column
  no_identity : ∀ column ∈ columns, column.identity = false
deriving DecidableEq, Repr

structure Table extends Heading where
  options : TableOptions
  columns : List Column
  columns_ne_nil : columns ≠ []
  one_identity : (columns.filter (·.isIdentity)).length ≤ 1
deriving DecidableEq, Repr

def Table.identityColumn? (table : Table) : Option Column := table.columns.find? (·.isIdentity)

structure Collection where
  tables : List Table
  composites : List CompositeType
  enums : List EnumType
deriving DecidableEq, Repr

def Collection.empty : Collection := ⟨[], [], []⟩

def Collection.isEmpty (collection : Collection) : Bool :=
  collection.tables.isEmpty && collection.composites.isEmpty && collection.enums.isEmpty

end SchemaScript
