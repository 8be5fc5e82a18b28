import SchemaScript.Proofs.Description

/-!
How statements are laid out, character by character. A block of columns is a list of lines, each
indented and with a newline at its end, all but the last with a comma before the newline.
-/

namespace SchemaScript

theorem intercalate_cons_eq_append {α : Type} (separator first : List α) (more : List (List α)) :
    separator.intercalate (first :: more) = first ++ more.flatMap (separator ++ ·) := by
  induction more generalizing first with
  | nil => simp
  | cons second more ih => simp [List.intercalate_cons_cons, ih second]

namespace Sql

-- The definitions are opened by `delta`: their equations are slow to make, as strings are unfolded.

theorem toList_commentOn (target content : String) :
    (commentOn target content).toList = "COMMENT ON ".toList ++ (target.toList ++ (" IS ".toList ++
      (literalChars content.toList ++ ";\n".toList))) := by
  delta commentOn
  simp only [String.toList_append, toList_literal, List.append_assoc]

theorem toList_createEnum (name first : String) (more : List String) :
    (createEnum name (first :: more)).toList = "CREATE TYPE ".toList ++ (name.toList ++
      (" AS ENUM\n\t(".toList ++ (literalChars first.toList ++
        ((more.flatMap fun label => ',' :: literalChars label.toList) ++ ");\n".toList)))) := by
  have comma : ",".toList = [','] := rfl
  delta createEnum
  simp only [String.toList_append, String.toList_intercalate, comma, List.map_cons,
    intercalate_cons_eq_append, List.map_map, List.flatMap_map, Function.comp_apply,
    toList_literal, List.append_assoc, List.cons_append, List.nil_append]

theorem toList_createSchema (schema : String) :
    (createSchema schema).toList =
      "CREATE SCHEMA IF NOT EXISTS ".toList ++ (schema.toList ++ ";".toList) := by
  delta createSchema
  simp only [String.toList_append, List.append_assoc]

theorem toList_dropSchema (schema : String) :
    (dropSchema schema).toList =
      "DROP SCHEMA IF EXISTS ".toList ++ (schema.toList ++ " CASCADE;".toList) := by
  delta dropSchema
  simp only [String.toList_append, List.append_assoc]

def lineOf (column : ColumnDescription) : List Char :=
  column.name.toList ++ ' ' :: (column.type.toList ++ column.constraint.clause.toList)

theorem toList_attributeLine (name type : String) :
    (attributeLine name type).toList = lineOf ⟨name, type, .none⟩ := by
  have space : " ".toList = [' '] := rfl
  have nothing : Constraint.none.clause.toList = [] := rfl
  delta attributeLine
  simp only [lineOf, String.toList_append, space, nothing, List.append_assoc, List.cons_append,
    List.nil_append, List.append_nil]

theorem toList_columnLine (name type : String) (constraint : Constraint) :
    (columnLine name type constraint).toList = lineOf ⟨name, type, constraint⟩ := by
  have space : " ".toList = [' '] := rfl
  delta columnLine attributeLine
  simp only [lineOf, String.toList_append, space, List.append_assoc, List.cons_append,
    List.nil_append]

def withCommas : List (List Char) → List (List Char)
  | [] => []
  | [last] => [last]
  | line :: next :: rest => (line ++ [',']) :: withCommas (next :: rest)

def blockOf (lines : List (List Char)) : List Char :=
  (withCommas lines).flatMap fun line => '\t' :: (line ++ ['\n'])

theorem exists_of_mem_withCommas {lines : List (List Char)} {written : List Char}
    (listed : written ∈ withCommas lines) :
    ∃ line ∈ lines, written = line ∨ written = line ++ [','] := by
  induction lines with
  | nil => exact absurd listed List.not_mem_nil
  | cons line rest ih =>
    cases rest with
    | nil => exact ⟨written, listed, .inl rfl⟩
    | cons next rest =>
      rcases List.mem_cons.1 listed with rfl | later
      · exact ⟨line, List.mem_cons_self, .inr rfl⟩
      · obtain ⟨other, isLine, same⟩ := ih later
        exact ⟨other, List.mem_cons_of_mem line isLine, same⟩

theorem toList_columnBlock (lines : List String) :
    (columnBlock lines).toList =
      [',', '\n'].intercalate (lines.map fun line => '\t' :: line.toList) := by
  have separator : ",\n".toList = [',', '\n'] := rfl
  have indent : "\t".toList = ['\t'] := rfl
  delta columnBlock
  simp only [String.toList_intercalate, separator, List.map_map, Function.comp_def,
    String.toList_append, indent, List.cons_append, List.nil_append]

theorem columnBlock_eq_blockOf {lines : List String} (nonempty : lines ≠ []) :
    (columnBlock lines).toList ++ ['\n'] = blockOf (lines.map String.toList) := by
  rw [toList_columnBlock]
  induction lines with
  | nil => exact absurd rfl nonempty
  | cons line rest ih =>
    cases rest with
    | nil => simp [blockOf, withCommas]
    | cons next rest =>
      have later := ih (List.cons_ne_nil next rest)
      simp only [List.map_cons, List.intercalate_cons_cons, List.append_assoc] at later ⊢
      rw [later]
      simp [blockOf, withCommas]

theorem isEmpty_columnBlock_cons (line : String) (more : List String) :
    (columnBlock (line :: more)).isEmpty = false := by
  have started : (columnBlock (line :: more)).toList ≠ [] := by
    simp [toList_columnBlock, intercalate_cons_eq_append]
  cases empty : (columnBlock (line :: more)).isEmpty with
  | false => rfl
  | true =>
    rw [String.isEmpty_iff.1 empty] at started
    exact absurd rfl started

theorem toList_createComposite (name : String) (lines : List String) :
    (createComposite name lines).toList = "CREATE TYPE ".toList ++ (name.toList ++
      (" AS\n(\n".toList ++ (blockOf (lines.map String.toList) ++ ");\n".toList))) := by
  have newline : "\n".toList = ['\n'] := rfl
  have body : (if (columnBlock lines).isEmpty = true then columnBlock lines
      else columnBlock lines ++ "\n").toList = blockOf (lines.map String.toList) := by
    cases lines with
    | nil => rfl
    | cons line more =>
      have block := columnBlock_eq_blockOf (List.cons_ne_nil line more)
      simp only [isEmpty_columnBlock_cons, Bool.false_eq_true, ↓reduceIte, String.toList_append,
        newline, block]
  delta createComposite
  simp only [String.toList_append, body, List.append_assoc]

theorem toList_createTable (name : String) {lines : List String} (nonempty : lines ≠ [])
    (unlogged : Bool) :
    (createTable name lines unlogged).toList =
      (if unlogged then "CREATE UNLOGGED TABLE" else "CREATE TABLE").toList ++
        (" IF NOT EXISTS ".toList ++ (name.toList ++ ("\n(\n".toList ++
          (blockOf (lines.map String.toList) ++ ");\n".toList)))) := by
  have closing : "\n);\n".toList = ['\n'] ++ ");\n".toList := rfl
  delta createTable
  simp only [String.toList_append, closing, List.append_assoc, ← columnBlock_eq_blockOf nonempty]

end Sql

namespace SqlObject

def block (object : SqlObject) : List Char := Sql.blockOf (object.description.columns.map Sql.lineOf)

theorem block_composite (definition : CompositeType) :
    (SqlObject.composite definition).block =
      Sql.blockOf ((definition.columns.map attributeLine).map String.toList) := by
  have lines : ∀ column ∈ definition.columns, Sql.lineOf ⟨column.name.text, column.type.text,
      (SqlObject.composite definition).constraintOn column⟩ = (attributeLine column).toList :=
    fun column _ => (Sql.toList_attributeLine _ _).symm
  rw [block, description, columns, List.map_map, List.map_map]
  exact congrArg Sql.blockOf (List.map_congr_left lines)

theorem block_table (definition : Table) :
    (SqlObject.table definition).block =
      Sql.blockOf ((definition.columns.map columnLine).map String.toList) := by
  have lines : ∀ column ∈ definition.columns, Sql.lineOf ⟨column.name.text, column.type.text,
      (SqlObject.table definition).constraintOn column⟩ = (columnLine column).toList := by
    intro column listed
    rw [constraintOn_table listed, columnLine, Sql.toList_columnLine]
  rw [block, description, columns, List.map_map, List.map_map]
  exact congrArg Sql.blockOf (List.map_congr_left lines)

theorem toList_columnComments (name : String) (object : SqlObject) :
    (columnComments name object.columns).toList =
      object.commented.flatMap fun entry => (Sql.commentOnColumn name entry.1 entry.2).toList := by
  delta columnComments commented
  rw [String.toList_join, List.flatMap_map, List.flatMap_map]

theorem toList_create_enum (definition : EnumType) :
    (SqlObject.enum definition).create.toList =
      (Sql.createEnum definition.qualifiedName.text definition.labels).toList ++
        (Sql.commentOn ("TYPE " ++ definition.qualifiedName.text) definition.comment).toList :=
  String.toList_append

theorem toList_create_composite (definition : CompositeType) :
    (SqlObject.composite definition).create.toList =
      "CREATE TYPE ".toList ++ (definition.qualifiedName.text.toList ++ (" AS\n(\n".toList ++
        ((SqlObject.composite definition).block ++ (");\n".toList ++
          ((Sql.commentOn ("TYPE " ++ definition.qualifiedName.text) definition.comment).toList ++
            (SqlObject.composite definition).commented.flatMap fun entry =>
              (Sql.commentOnColumn definition.qualifiedName.text entry.1 entry.2).toList))))) := by
  have created := Sql.toList_createComposite definition.qualifiedName.text
    (definition.columns.map attributeLine)
  have comments := toList_columnComments definition.qualifiedName.text (.composite definition)
  rw [← block_composite] at created
  rw [← comments]
  change (Sql.createComposite definition.qualifiedName.text (definition.columns.map attributeLine) ++
    Sql.commentOn ("TYPE " ++ definition.qualifiedName.text) definition.comment ++
    columnComments definition.qualifiedName.text definition.columns).toList = _
  simp only [String.toList_append, created, columns, List.append_assoc]

theorem toList_create_table (definition : Table) :
    (SqlObject.table definition).create.toList =
      (if definition.options.unlogged then "CREATE UNLOGGED TABLE" else "CREATE TABLE").toList ++
        (" IF NOT EXISTS ".toList ++ (definition.qualifiedName.text.toList ++ ("\n(\n".toList ++
          ((SqlObject.table definition).block ++ (");\n".toList ++
            ((Sql.commentOn ("TABLE " ++ definition.qualifiedName.text)
              definition.comment).toList ++
              (SqlObject.table definition).commented.flatMap fun entry =>
                (Sql.commentOnColumn definition.qualifiedName.text entry.1
                  entry.2).toList)))))) := by
  have nonempty : definition.columns.map columnLine ≠ [] := by
    simpa using definition.columns_ne_nil
  have created := Sql.toList_createTable definition.qualifiedName.text nonempty
    definition.options.unlogged
  have comments := toList_columnComments definition.qualifiedName.text (.table definition)
  rw [← block_table] at created
  rw [← comments]
  change (Sql.createTable definition.qualifiedName.text (definition.columns.map columnLine)
      definition.options.unlogged ++
    Sql.commentOn ("TABLE " ++ definition.qualifiedName.text) definition.comment ++
    columnComments definition.qualifiedName.text definition.columns).toList = _
  simp only [String.toList_append, created, columns, List.append_assoc]

end SqlObject

end SchemaScript
