import SchemaScript.Text.Character

/-!
The text of scripts: string literals, in which a single quote is written twice and nothing else is
escaped, statements that create types, tables and schemas and comment on them, and whole scripts,
which have a blank line between statements. Names and types are written as they come.
-/

namespace SchemaScript.Sql

def quoteMark : Char := '\x27'

def doubleMarks : List Char → List Char
  | [] => []
  | c :: rest =>
    if c = quoteMark then quoteMark :: quoteMark :: doubleMarks rest else c :: doubleMarks rest

def literalChars (cs : List Char) : List Char := quoteMark :: doubleMarks cs ++ [quoteMark]

def literal (text : String) : String := String.ofList (literalChars text.toList)

@[simp] theorem toList_literal (text : String) :
    (literal text).toList = literalChars text.toList := by
  simp [literal]

def columnBlock (lines : List String) : String :=
  ",\n".intercalate (lines.map ("\t" ++ ·))

def createEnum (name : String) (labels : List String) : String :=
  "CREATE TYPE " ++ name ++ " AS ENUM\n\t(" ++ ",".intercalate (labels.map literal) ++ ");\n"

def createComposite (name : String) (attributes : List String) : String :=
  let block := columnBlock attributes
  let body := if block.isEmpty then block else block ++ "\n"
  "CREATE TYPE " ++ name ++ " AS\n(\n" ++ body ++ ");\n"

inductive Constraint
  | none
  | notNull
  | identity
deriving DecidableEq, Repr

/-- An identity column is a primary key, which implies that it is not null. -/
def Constraint.of (identity nullable : Bool) : Constraint :=
  if identity then .identity else if nullable then .none else .notNull

def Constraint.clause : Constraint → String
  | .none => ""
  | .notNull => " not null"
  | .identity => " generated always as identity primary key"

def attributeLine (name type : String) : String := name ++ " " ++ type

def columnLine (name type : String) (constraint : Constraint) : String :=
  attributeLine name type ++ constraint.clause

def createTable (name : String) (columns : List String) (unlogged : Bool) : String :=
  (if unlogged then "CREATE UNLOGGED TABLE" else "CREATE TABLE") ++ " IF NOT EXISTS " ++ name ++
    "\n(\n" ++ columnBlock columns ++ "\n);\n"

def commentOn (target comment : String) : String :=
  "COMMENT ON " ++ target ++ " IS " ++ literal comment ++ ";\n"

def commentOnType (name comment : String) : String := commentOn ("TYPE " ++ name) comment

def commentOnTable (name comment : String) : String := commentOn ("TABLE " ++ name) comment

def commentOnColumn (name column comment : String) : String :=
  commentOn ("COLUMN " ++ name ++ "." ++ column) comment

def createSchema (schema : String) : String := "CREATE SCHEMA IF NOT EXISTS " ++ schema ++ ";"

def dropSchema (schema : String) : String := "DROP SCHEMA IF EXISTS " ++ schema ++ " CASCADE;"

end SchemaScript.Sql

namespace SchemaScript

def defaultHeader : String := "--Auto generated"

def renderScript (header : Option String) (statements : List String) : String :=
  let head := (header.filter (!·.isEmpty)).toList
  "\n\n".intercalate (head ++ statements.map Text.dropFinalNewlines) ++ "\n"

end SchemaScript
