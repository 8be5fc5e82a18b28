import SchemaScript.Proofs.Layout
import SchemaScript.Proofs.Reading

/-!
What the statements for an object say can be read back from them: whatever the labels and comments
hold, and as long as no column type looks like a line end or like a constraint. The columns are read
line by line, and the last line alone has no comma that is not part of the type.
-/

namespace SchemaScript

namespace Sql

def splitConstraint (cs : List Char) : List Char × Constraint :=
  match cs.dropSuffix? Constraint.identity.clause.toList with
  | some type => (type, .identity)
  | none =>
    match cs.dropSuffix? Constraint.notNull.clause.toList with
    | some type => (type, .notNull)
    | none => (cs, .none)

def readColumn (constrained : Bool) (line : List Char) : ColumnDescription :=
  let name := line.takeWhile (· != ' ')
  let definition := (line.dropWhile (· != ' ')).tail
  let (type, constraint) :=
    if constrained then splitConstraint definition else (definition, .none)
  ⟨String.ofList name, String.ofList type, constraint⟩

def withoutCommas : List (List Char) → List (List Char)
  | [] => []
  | [last] => [last]
  | line :: next :: rest => line.dropLast :: withoutCommas (next :: rest)

/-- A type that tells neither a line end nor a constraint. -/
structure PlainType (type : String) : Prop where
  oneLine : '\n' ∉ type.toList
  notNull : ¬ Constraint.notNull.clause.toList <:+ type.toList
  identity : ¬ Constraint.identity.clause.toList <:+ type.toList

theorem dropSuffix?_append (cs suffix : List Char) :
    (cs ++ suffix).dropSuffix? suffix = some cs :=
  List.dropSuffix?_eq_some_iff.2 ⟨suffix, rfl, beq_self_eq_true _⟩

theorem dropSuffix?_eq_none {cs suffix : List Char} (absent : ¬ suffix <:+ cs) :
    cs.dropSuffix? suffix = none := by
  cases found : cs.dropSuffix? suffix with
  | none => rfl
  | some front =>
    obtain ⟨back, rfl, same⟩ := List.dropSuffix?_eq_some_iff.1 found
    rw [beq_iff_eq.1 same] at absent
    exact absurd (List.suffix_append front suffix) absent

theorem splitConstraint_append {type : String} (plain : PlainType type)
    (constraint : Constraint) :
    splitConstraint (type.toList ++ constraint.clause.toList) = (type.toList, constraint) := by
  cases constraint with
  | none =>
    have empty : type.toList ++ Constraint.none.clause.toList = type.toList := List.append_nil _
    rw [empty, splitConstraint, dropSuffix?_eq_none plain.identity,
      dropSuffix?_eq_none plain.notNull]
  | notNull =>
    have other : ¬ Constraint.identity.clause.toList <:+
        type.toList ++ Constraint.notNull.clause.toList := by
      rintro ⟨front, same⟩
      have last := congrArg List.getLast? same
      simp [Constraint.clause] at last
    rw [splitConstraint, dropSuffix?_eq_none other, dropSuffix?_append]
  | identity => rw [splitConstraint, dropSuffix?_append]

theorem withoutCommas_withCommas (lines : List (List Char)) :
    withoutCommas (withCommas lines) = lines := by
  induction lines with
  | nil => rfl
  | cons line rest ih =>
    cases rest with
    | nil => rfl
    | cons next rest =>
      cases rest with
      | nil => simp [withCommas, withoutCommas]
      | cons third rest =>
        simp only [withCommas, withoutCommas] at ih ⊢
        simp [ih]

/-- A column whose line can be told apart from the lines around it and read back. -/
structure LegibleColumn (constrained : Bool) (column : ColumnDescription) : Prop where
  spaceless : ' ' ∉ column.name.toList
  oneLine : '\n' ∉ column.name.toList
  plain : PlainType column.type
  free : constrained = false → column.constraint = .none

namespace LegibleColumn

variable {constrained : Bool} {column : ColumnDescription}

theorem newline_not_mem (legible : LegibleColumn constrained column) : '\n' ∉ lineOf column := by
  have clause : '\n' ∉ column.constraint.clause.toList := by
    cases column.constraint <;> decide
  simp [lineOf, legible.oneLine, legible.plain.oneLine, clause]

theorem readColumn_lineOf (legible : LegibleColumn constrained column) :
    readColumn constrained (lineOf column) = column := by
  have passes : ∀ c ∈ column.name.toList, (c != ' ') = true := by
    intro c found
    rw [bne_iff_ne]
    rintro rfl
    exact legible.spaceless found
  have stops : (' ' != ' ') = false := rfl
  simp only [readColumn, lineOf, List.takeWhile_append_of_pos passes,
    List.dropWhile_append_of_pos passes, List.takeWhile_cons, List.dropWhile_cons, stops]
  cases constrained with
  | true => simp [splitConstraint_append legible.plain]
  | false =>
    have nothing : Constraint.none.clause.toList = [] := rfl
    have free := legible.free rfl
    cases column
    simp_all

end LegibleColumn

theorem newline_not_mem_withCommas {lines : List (List Char)}
    (oneLine : ∀ line ∈ lines, '\n' ∉ line) : ∀ line ∈ withCommas lines, '\n' ∉ line := by
  intro written listed
  obtain ⟨line, isLine, rfl | rfl⟩ := exists_of_mem_withCommas listed
  · exact oneLine _ isLine
  · simpa using oneLine _ isLine

namespace Reader

def columns (constrained : Bool) : Reader (List ColumnDescription) := do
  let lines ← eachAfter '\t' (upTo '\n')
  return (withoutCommas lines).map (readColumn constrained)

def comment (target : String) : Reader String := do
  text "COMMENT ON "
  text target
  text " IS "
  let content ← literal
  text ";\n"
  return content

def columnComment (name : String) : Reader (String × String) := do
  text "OMMENT ON COLUMN "
  text name
  text "."
  let column ← upTo ' '
  text "IS "
  let content ← literal
  text ";\n"
  return (String.ofList column, content)

theorem run_columns {constrained : Bool} {listed : List ColumnDescription}
    (legible : ∀ column ∈ listed, LegibleColumn constrained column) {rest : List Char}
    (done : rest.head? ≠ some '\t') :
    (columns constrained).run (blockOf (listed.map lineOf) ++ rest) = some (listed, rest) := by
  have oneLine : ∀ line ∈ withCommas (listed.map lineOf), '\n' ∉ line := by
    apply newline_not_mem_withCommas
    intro line isLine
    obtain ⟨column, isColumn, rfl⟩ := List.mem_map.1 isLine
    exact (legible column isColumn).newline_not_mem
  have reads : ∀ line ∈ withCommas (listed.map lineOf), ∀ after,
      (upTo '\n').run ((line ++ ['\n']) ++ after) = some (line, after) := by
    intro line isLine after
    rw [List.append_assoc]
    exact run_upTo (oneLine line isLine) after
  have back : listed.map (readColumn constrained ∘ lineOf) = listed :=
    (List.map_congr_left fun column isColumn =>
      (legible column isColumn).readColumn_lineOf).trans (List.map_id listed)
  rw [columns, StateT.run_bind, blockOf, run_eachAfter_of_reads reads done]
  simp [withoutCommas_withCommas, back]

theorem run_comment (target content : String) (rest : List Char) :
    (comment target).run ((commentOn target content).toList ++ rest) = some (content, rest) := by
  have clear : (";\n".toList ++ rest).head? ≠ some quoteMark := by simp [quoteMark]
  simp only [toList_commentOn, List.append_assoc, comment, StateT.run_bind, run_text,
    run_literal content clear, Option.bind_eq_bind, Option.bind_some, StateT.run_pure,
    Option.pure_def]

theorem run_columnComments (name : String) {entries : List (String × String)}
    (spaceless : ∀ entry ∈ entries, ' ' ∉ entry.1.toList) :
    (eachAfter 'C' (columnComment name)).run
      (entries.flatMap fun entry => (commentOnColumn name entry.1 entry.2).toList) =
      some (entries, []) := by
  have front : "COMMENT ON ".toList ++ "COLUMN ".toList = 'C' :: "OMMENT ON COLUMN ".toList := rfl
  have link : " IS ".toList = ' ' :: "IS ".toList := rfl
  let behind (entry : String × String) : List Char :=
    "OMMENT ON COLUMN ".toList ++ (name.toList ++ (".".toList ++ (entry.1.toList ++
      ' ' :: ("IS ".toList ++ (literalChars entry.2.toList ++ ";\n".toList)))))
  have written (entry : String × String) :
      (commentOnColumn name entry.1 entry.2).toList = 'C' :: behind entry := by
    delta commentOnColumn
    simp only [behind, toList_commentOn, String.toList_append, link, List.append_assoc,
      List.cons_append]
    rw [← List.append_assoc, front, List.cons_append]
  have reads : ∀ entry ∈ entries, ∀ after,
      (columnComment name).run (behind entry ++ after) = some (entry, after) := by
    intro entry isEntry after
    have clear : (";\n".toList ++ after).head? ≠ some quoteMark := by simp [quoteMark]
    simp only [behind, columnComment, List.append_assoc, List.cons_append, StateT.run_bind,
      run_text, run_upTo (spaceless entry isEntry), run_literal entry.2 clear,
      Option.bind_eq_bind, Option.bind_some, StateT.run_pure, Option.pure_def,
      String.ofList_toList]
  have all := run_eachAfter_of_reads reads (show ([] : List Char).head? ≠ some 'C' by simp)
  simpa only [written, List.append_nil] using all

def labels : Reader (List String) := do
  let first ← literal
  let more ← eachAfter ',' literal
  text ");\n"
  return first :: more

def enum (name : String) : Reader Description := do
  text "AS ENUM\n\t("
  let listed ← labels
  let content ← comment ("TYPE " ++ name)
  return ⟨.enum, name, listed, false, [], content, []⟩

def composite (name : String) : Reader Description := do
  text "AS\n(\n"
  let attributes ← columns false
  text ");\n"
  let content ← comment ("TYPE " ++ name)
  let others ← eachAfter 'C' (columnComment name)
  return ⟨.composite, name, [], false, attributes, content, others⟩

def table (unlogged : Bool) : Reader Description := do
  text " IF NOT EXISTS "
  let name ← String.ofList <$> upTo '\n'
  text "(\n"
  let listed ← columns true
  text ");\n"
  let content ← comment ("TABLE " ++ name)
  let others ← eachAfter 'C' (columnComment name)
  return ⟨.table, name, [], unlogged, listed, content, others⟩

def type : Reader Description := do
  let name ← String.ofList <$> upTo ' '
  enum name <|> composite name

def definition : Reader Description :=
  (text "CREATE TYPE " >>= fun _ => type) <|>
    ((text "CREATE TABLE" >>= fun _ => table false) <|>
      (text "CREATE UNLOGGED TABLE" >>= fun _ => table true))

end Reader

def decode (statements : String) : Option Description :=
  match Reader.definition.run statements.toList with
  | some (described, []) => some described
  | _ => none

namespace Reader

theorem run_labels (first : String) (more : List String) (rest : List Char) :
    labels.run (literalChars first.toList ++
      ((more.flatMap fun label => ',' :: literalChars label.toList) ++ (");\n".toList ++ rest))) =
      some (first :: more, rest) := by
  have afterLast : (");\n".toList ++ rest).head? ≠ some quoteMark := by simp [quoteMark]
  have notComma : (");\n".toList ++ rest).head? ≠ some ',' := by simp
  simp only [labels, StateT.run_bind, run_text, run_literal first (head?_moreLiterals more afterLast),
    run_moreLiterals more afterLast notComma, Option.bind_eq_bind, Option.bind_some,
    StateT.run_pure, Option.pure_def]

theorem run_enum (name first : String) (more : List String) (content : String)
    (rest : List Char) :
    (enum name).run ("AS ENUM\n\t(".toList ++ (literalChars first.toList ++
      ((more.flatMap fun label => ',' :: literalChars label.toList) ++ (");\n".toList ++
        ((commentOn ("TYPE " ++ name) content).toList ++ rest))))) =
      some (⟨.enum, name, first :: more, false, [], content, []⟩, rest) := by
  simp only [enum, StateT.run_bind, run_text, run_labels, run_comment, Option.bind_eq_bind,
    Option.bind_some, StateT.run_pure, Option.pure_def]

theorem run_composite {name : String} {listed : List ColumnDescription}
    (legible : ∀ column ∈ listed, LegibleColumn false column) (content : String)
    {entries : List (String × String)} (spaceless : ∀ entry ∈ entries, ' ' ∉ entry.1.toList) :
    (composite name).run ("AS\n(\n".toList ++
      (blockOf (listed.map lineOf) ++ (");\n".toList ++
        ((commentOn ("TYPE " ++ name) content).toList ++
          entries.flatMap fun entry => (commentOnColumn name entry.1 entry.2).toList)))) =
      some (⟨.composite, name, [], false, listed, content, entries⟩, []) := by
  have done : ∀ rest : List Char, (");\n".toList ++ rest).head? ≠ some '\t' := by simp
  simp only [composite, StateT.run_bind, run_text, run_columns legible (done _), run_comment,
    run_columnComments name spaceless, Option.bind_eq_bind, Option.bind_some, StateT.run_pure,
    Option.pure_def]

theorem run_table {name : String} (oneLine : '\n' ∉ name.toList) (unlogged : Bool)
    {listed : List ColumnDescription} (legible : ∀ column ∈ listed, LegibleColumn true column)
    (content : String) {entries : List (String × String)}
    (spaceless : ∀ entry ∈ entries, ' ' ∉ entry.1.toList) :
    (table unlogged).run (" IF NOT EXISTS ".toList ++ (name.toList ++ '\n' :: ("(\n".toList ++
      (blockOf (listed.map lineOf) ++ (");\n".toList ++
        ((commentOn ("TABLE " ++ name) content).toList ++
          entries.flatMap fun entry => (commentOnColumn name entry.1 entry.2).toList)))))) =
      some (⟨.table, name, [], unlogged, listed, content, entries⟩, []) := by
  have done : ∀ rest : List Char, (");\n".toList ++ rest).head? ≠ some '\t' := by simp
  simp only [table, StateT.run_bind, StateT.run_map, run_text, run_upTo oneLine,
    run_columns legible (done _), run_comment, run_columnComments name spaceless,
    Option.bind_eq_bind, Option.bind_some, Option.map_eq_map, Option.map_some,
    String.ofList_toList, StateT.run_pure, Option.pure_def]

theorem run_type_of_composite {name : String} (spaceless : ' ' ∉ name.toList) (rest : List Char) :
    type.run (name.toList ++ ' ' :: ("AS\n(\n".toList ++ rest)) =
      (composite name).run ("AS\n(\n".toList ++ rest) := by
  have noEnum : (enum name).run ("AS\n(\n".toList ++ rest) = none := rfl
  simp only [type, StateT.run_bind, StateT.run_map, run_upTo spaceless, Option.bind_eq_bind,
    Option.bind_some, Option.map_eq_map, Option.map_some, String.ofList_toList,
    run_orElse_of_none noEnum]

theorem run_type_of_enum {name : String} (spaceless : ' ' ∉ name.toList) {rest left : List Char}
    {described : Description} (reads : (enum name).run rest = some (described, left)) :
    type.run (name.toList ++ ' ' :: rest) = some (described, left) := by
  simp only [type, StateT.run_bind, StateT.run_map, run_upTo spaceless, Option.bind_eq_bind,
    Option.bind_some, Option.map_eq_map, Option.map_some, String.ofList_toList,
    run_orElse_of_some reads]

theorem run_definition_of_type {rest left : List Char} {described : Description}
    (reads : type.run rest = some (described, left)) :
    definition.run ("CREATE TYPE ".toList ++ rest) = some (described, left) := by
  refine run_orElse_of_some ?_
  rw [StateT.run_bind, run_text]
  exact reads

theorem run_definition_of_table {unlogged : Bool} {rest left : List Char}
    {described : Description} (reads : (table unlogged).run rest = some (described, left)) :
    definition.run ((if unlogged then "CREATE UNLOGGED TABLE" else "CREATE TABLE").toList ++ rest) =
      some (described, left) := by
  cases unlogged with
  | false =>
    have noType : (text "CREATE TYPE " >>= fun _ => type).run ("CREATE TABLE".toList ++ rest) =
        none := rfl
    refine (run_orElse_of_none noType).trans (run_orElse_of_some ?_)
    rw [StateT.run_bind, run_text]
    exact reads
  | true =>
    have noType : (text "CREATE TYPE " >>= fun _ => type).run
        ("CREATE UNLOGGED TABLE".toList ++ rest) = none := rfl
    have logged : (text "CREATE TABLE" >>= fun _ => table false).run
        ("CREATE UNLOGGED TABLE".toList ++ rest) = none := rfl
    refine (run_orElse_of_none noType).trans ((run_orElse_of_none logged).trans ?_)
    rw [StateT.run_bind, run_text]
    exact reads

end Reader

theorem decode_eq_some {statements : String} {described : Description}
    (reads : Reader.definition.run statements.toList = some (described, [])) :
    decode statements = some described := by
  rw [decode, reads]

end Sql

namespace SqlObject

/-- A definition whose column types can be told from what surrounds them. -/
structure Readable (object : SqlObject) : Prop where
  defined : object.kind ≠ .schema
  plain : ∀ column ∈ object.columns, Sql.PlainType column.type.text

variable {object : SqlObject}

theorem legible_description (object : SqlObject)
    (plain : ∀ column ∈ object.columns, Sql.PlainType column.type.text)
    {constrained : Bool}
    (free : constrained = false → ∀ column, object.constraintOn column = .none) :
    ∀ described ∈ object.description.columns, Sql.LegibleColumn constrained described := by
  intro described listed
  obtain ⟨column, isColumn, rfl⟩ := List.mem_map.1 listed
  constructor
  · exact column.name.not_mem (by decide)
  · exact column.name.not_mem (by decide)
  · exact plain column isColumn
  · exact fun unconstrained => free unconstrained column

theorem spaceless_commented (object : SqlObject) :
    ∀ entry ∈ object.commented, ' ' ∉ entry.1.toList := by
  intro entry listed
  obtain ⟨column, _, rfl⟩ := List.mem_map.1 listed
  exact column.name.not_mem (by decide)

theorem decode_create_enum (definition : EnumType) :
    Sql.decode (SqlObject.enum definition).create = some (SqlObject.enum definition).description := by
  have spaceless : ' ' ∉ definition.qualifiedName.text.toList :=
    definition.qualifiedName.not_mem (by decide) (by decide)
  have opening : " AS ENUM\n\t(".toList = ' ' :: "AS ENUM\n\t(".toList := rfl
  obtain ⟨first, more, labelled⟩ := List.exists_cons_of_ne_nil definition.labels_ne_nil
  have described : (SqlObject.enum definition).description = ⟨.enum, definition.qualifiedName.text,
      first :: more, false, [], definition.comment, []⟩ := by
    rw [← labelled]
    rfl
  have reads := Sql.Reader.run_definition_of_type (Sql.Reader.run_type_of_enum spaceless
    (Sql.Reader.run_enum definition.qualifiedName.text first more definition.comment []))
  rw [described]
  apply Sql.decode_eq_some
  simpa only [toList_create_enum, labelled, Sql.toList_createEnum, opening, List.append_assoc,
    List.cons_append, List.append_nil] using reads

theorem decode_create_composite {definition : CompositeType}
    (plain : ∀ column ∈ definition.columns, Sql.PlainType column.type.text) :
    Sql.decode (SqlObject.composite definition).create =
      some (SqlObject.composite definition).description := by
  have spaceless : ' ' ∉ definition.qualifiedName.text.toList :=
    definition.qualifiedName.not_mem (by decide) (by decide)
  have opening : " AS\n(\n".toList = ' ' :: "AS\n(\n".toList := rfl
  have legible : ∀ described ∈ (SqlObject.composite definition).description.columns,
      Sql.LegibleColumn false described :=
    legible_description (.composite definition) plain fun _ _ => rfl
  have reads := Sql.Reader.run_definition_of_type
    ((Sql.Reader.run_type_of_composite spaceless _).trans
      (Sql.Reader.run_composite legible definition.comment
        (spaceless_commented (.composite definition))))
  apply Sql.decode_eq_some
  rw [toList_create_composite, opening, List.cons_append]
  exact reads

theorem decode_create_table {definition : Table}
    (plain : ∀ column ∈ definition.columns, Sql.PlainType column.type.text) :
    Sql.decode (SqlObject.table definition).create =
      some (SqlObject.table definition).description := by
  have oneLine : '\n' ∉ definition.qualifiedName.text.toList :=
    definition.qualifiedName.not_mem (by decide) (by decide)
  have opening : "\n(\n".toList = '\n' :: "(\n".toList := rfl
  have legible : ∀ described ∈ (SqlObject.table definition).description.columns,
      Sql.LegibleColumn true described :=
    legible_description (.table definition) plain nofun
  have reads := Sql.Reader.run_definition_of_table
    (Sql.Reader.run_table oneLine definition.options.unlogged legible definition.comment
      (spaceless_commented (.table definition)))
  apply Sql.decode_eq_some
  rw [toList_create_table, opening, List.cons_append]
  exact reads

theorem decode_create (readable : object.Readable) :
    Sql.decode object.create = some object.description := by
  obtain ⟨defined, plain⟩ := readable
  cases object with
  | schema name => exact absurd rfl defined
  | enum definition => exact decode_create_enum definition
  | composite definition => exact decode_create_composite plain
  | table definition => exact decode_create_table plain

/-- What a definition says can be read back from its statements, so two definitions with the same
statements say the same. -/
theorem create_tells_description :
    (∀ object : SqlObject, object.Readable → Sql.decode object.create = some object.description) ∧
      ∀ object other : SqlObject, object.Readable → other.Readable →
        object.create = other.create → object.description = other.description := by
  refine ⟨fun object readable => decode_create readable, ?_⟩
  intro object other readable otherReadable same
  have first := decode_create readable
  have second := decode_create otherReadable
  rw [same, second] at first
  exact (Option.some.inj first).symm

end SqlObject

namespace Sample

def remarks : Table where
  schema := ⟨"journal", by decide⟩
  name := ⟨"remarks", by decide⟩
  comment := "it''s';\n);\nCOMMENT ON COLUMN journal.remarks.body IS '"
  options := ⟨true⟩
  columns := [⟨.literal "bigint", ⟨"line", by decide⟩, true, "", false⟩,
    ⟨.literal "not null", ⟨"body", by decide⟩, false, "';--", false⟩,
    ⟨.reference "sales.money,", ⟨"price", by decide⟩, true, "';\n", false⟩]
  columns_ne_nil := by decide
  one_identity := by decide

theorem create_tells_description_remarks :
    (SqlObject.table remarks).Readable ∧
      Sql.decode (SqlObject.table remarks).create = some (SqlObject.table remarks).description := by
  have readable : (SqlObject.table remarks).Readable := by
    refine ⟨by decide, fun column listed => ?_⟩
    have cases : column = remarks.columns[0] ∨ column = remarks.columns[1] ∨
        column = remarks.columns[2] := by simpa [SqlObject.columns, remarks] using listed
    rcases cases with rfl | rfl | rfl
    · exact ⟨by decide, by decide, by decide⟩
    · exact ⟨by decide, by decide, by decide⟩
    · exact ⟨by decide, by decide, by decide⟩
  exact ⟨readable, SqlObject.create_tells_description.1 _ readable⟩

end Sample

end SchemaScript
