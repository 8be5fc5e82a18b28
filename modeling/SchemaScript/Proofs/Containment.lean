import Mathlib.Data.List.Infix
import SchemaScript.Proofs.History
import SchemaScript.Proofs.Layout
import SchemaScript.Proofs.Lexing
import SchemaScript.Proofs.Outcome
import SchemaScript.Proofs.Sections

/-!
Labels and comments stay inside their literals. A script reads as its statements one by one, each as
if it stood alone, and the literals in it are the labels and comments of the objects, whatever these
hold. Only the types of columns are written as they come, so they must not hold marks of their own.
-/

namespace SchemaScript

namespace Sql

/-- A type that neither begins a quotation or a comment nor ends a statement. -/
structure HarmlessType (type : String) : Prop where
  marks : ∀ c ∈ [quoteMark, '"', ';', '$'], c ∉ type.toList
  lineComment : ¬ "--".toList <:+: type.toList
  blockComment : ¬ "/*".toList <:+: type.toList

instance (type : String) : Decidable (HarmlessType type) :=
  decidable_of_iff (([quoteMark, '"', ';', '$'].all fun c => !type.toList.contains c) = true ∧
      ¬ "--".toList <:+: type.toList ∧ ¬ "/*".toList <:+: type.toList)
    ⟨fun ⟨marks, line, block⟩ => ⟨by simpa using marks, line, block⟩,
      fun ⟨marks, line, block⟩ => ⟨by simpa using marks, line, block⟩⟩

theorem isQuiet_of_forall {cs : List Char}
    (quiet : ∀ c ∈ cs, isQuietMark c = true ∧ c ≠ '-' ∧ c ≠ '/') : isQuiet cs = true := by
  induction cs with
  | nil => rfl
  | cons c rest ih =>
    obtain ⟨mark, noDash, noSlash⟩ := quiet c List.mem_cons_self
    have single : isQuiet [c] = true := by simp [isQuiet, mark, noDash, noSlash]
    exact isQuiet_append single (ih fun d later => quiet d (List.mem_cons_of_mem c later))

/-- What follows a harmless type keeps its last character from beginning a comment. -/
theorem isQuiet_harmless_append {cs : List Char}
    (marks : ∀ c ∈ [quoteMark, '"', ';', '$'], c ∉ cs) (lineComment : ¬ ['-', '-'] <:+: cs)
    (blockComment : ¬ ['/', '*'] <:+: cs) {d : Char} {rest : List Char} (noDash : d ≠ '-')
    (noStar : d ≠ '*') (quiet : isQuiet (d :: rest) = true) :
    isQuiet (cs ++ d :: rest) = true := by
  induction cs with
  | nil => exact quiet
  | cons c cs ih =>
    have later := ih (fun m isMark found => marks m isMark (List.mem_cons_of_mem c found))
      (fun inside => lineComment (inside.trans (List.suffix_cons c cs).isInfix))
      (fun inside => blockComment (inside.trans (List.suffix_cons c cs).isInfix))
    have mark : isQuietMark c = true := by
      have other : ∀ m ∈ [quoteMark, '"', ';', '$'], c ≠ m := by
        rintro m isMark rfl
        exact marks c isMark List.mem_cons_self
      simp only [List.mem_cons, List.not_mem_nil, or_false, forall_eq_or_imp, forall_eq] at other
      simp [isQuietMark, other]
    cases cs with
    | nil =>
      have parted : opensComment c d = false := by simp [opensComment, noDash, noStar]
      simpa [isQuiet, mark, parted] using later
    | cons e cs =>
      have parted : opensComment c e = false := by
        rw [opensComment, Bool.or_eq_false_iff, Bool.and_eq_false_iff, Bool.and_eq_false_iff]
        simp only [beq_eq_false_iff_ne]
        constructor
        · by_contra both
          obtain ⟨rfl, rfl⟩ := (not_or.1 both).imp not_not.1 not_not.1
          exact lineComment (List.prefix_append ['-', '-'] cs).isInfix
        · by_contra both
          obtain ⟨rfl, rfl⟩ := (not_or.1 both).imp not_not.1 not_not.1
          exact blockComment (List.prefix_append ['/', '*'] cs).isInfix
      simpa [isQuiet, mark, parted] using later

end Sql

theorem Identifier.isQuiet (name : Identifier) : Sql.isQuiet name.text.toList = true := by
  refine Sql.isQuiet_of_forall fun c found => ?_
  have known : isIdentifierChar c = true := by
    cases foreign : isIdentifierChar c with
    | true => rfl
    | false => exact absurd found (name.not_mem foreign)
  have other : ∀ d, isIdentifierChar d = false → c ≠ d := by
    rintro d foreign rfl
    exact absurd known (by simp [foreign])
  have noQuote := other Sql.quoteMark (by decide)
  have noEnd := other ';' (by decide)
  have noName := other '"' (by decide)
  have noDollar := other '$' (by decide)
  refine ⟨?_, other '-' (by decide), other '/' (by decide)⟩
  simp [Sql.isQuietMark, noQuote, noEnd, noName, noDollar]

theorem QualifiedName.isQuiet (name : QualifiedName) : Sql.isQuiet name.text.toList = true := by
  simp only [QualifiedName.text, String.toList_append]
  exact Sql.isQuiet_append (Sql.isQuiet_append name.schema.isQuiet (by decide)) name.name.isQuiet

namespace Sql

theorem isQuiet_lineOf_append {column : ColumnDescription}
    (name : isQuiet column.name.toList = true) (harmless : HarmlessType column.type)
    {ending : List Char} (ends : ending = ['\n'] ∨ ending = [',', '\n']) :
    isQuiet (lineOf column ++ ending) = true := by
  obtain ⟨d, rest, tail, noDash, noStar, quiet⟩ : ∃ d rest,
      column.constraint.clause.toList ++ ending = d :: rest ∧ d ≠ '-' ∧ d ≠ '*' ∧
        isQuiet (d :: rest) = true := by
    cases column.constraint <;> rcases ends with rfl | rfl <;>
      exact ⟨_, _, rfl, by decide, by decide, by decide⟩
  have type : isQuiet (column.type.toList ++ d :: rest) = true :=
    isQuiet_harmless_append harmless.marks harmless.lineComment harmless.blockComment noDash noStar
      quiet
  have written : lineOf column ++ ending =
      column.name.toList ++ ([' '] ++ (column.type.toList ++ d :: rest)) := by
    simp only [lineOf, List.append_assoc, List.cons_append, List.nil_append, tail]
  rw [written]
  exact isQuiet_append name (isQuiet_append (by decide) type)

theorem isQuiet_blockOf {columns : List ColumnDescription}
    (names : ∀ column ∈ columns, isQuiet column.name.toList = true)
    (harmless : ∀ column ∈ columns, HarmlessType column.type) :
    isQuiet (blockOf (columns.map lineOf)) = true := by
  refine isQuiet_flatMap fun written listed => ?_
  obtain ⟨line, isLine, same⟩ := exists_of_mem_withCommas listed
  obtain ⟨column, isColumn, rfl⟩ := List.mem_map.1 isLine
  have ends : ∃ ending, written ++ ['\n'] = lineOf column ++ ending ∧
      (ending = ['\n'] ∨ ending = [',', '\n']) := by
    rcases same with rfl | rfl
    · exact ⟨['\n'], rfl, .inl rfl⟩
    · exact ⟨[',', '\n'], by simp, .inr rfl⟩
  obtain ⟨ending, same, ends⟩ := ends
  have quiet := isQuiet_lineOf_append (names column isColumn) (harmless column isColumn) ends
  have indent : isQuiet ['\t'] = true := by decide
  rw [same]
  exact isQuiet_append indent quiet

variable {lineEnd : LineEnd}

theorem finishes_comment {target : String} (quiet : isQuiet target.toList = true)
    (content : String) :
    Finishes lineEnd ("COMMENT ON ".toList ++ (target.toList ++ " IS ".toList) ++
      (literalChars content.toList ++ [';'])) [content] := by
  have opening : isQuiet ("COMMENT ON ".toList ++ (target.toList ++ " IS ".toList)) = true :=
    isQuiet_append (by decide) (isQuiet_append quiet (by decide))
  exact (Continues.of_isQuiet opening).finishes_literal content

theorem toList_commentOn_append (target content : String) (rest : List Char) :
    (commentOn target content).toList ++ rest =
      ("COMMENT ON ".toList ++ (target.toList ++ " IS ".toList) ++
        (literalChars content.toList ++ [';'])) ++ '\n' :: rest := by
  have ending : ";\n".toList = [';', '\n'] := rfl
  simp only [toList_commentOn, ending, List.append_assoc, List.cons_append, List.nil_append]

theorem block_comments {name target : String} (quiet : isQuiet name.toList = true)
    (quietTarget : isQuiet target.toList = true) (content : String)
    {entries : List (String × String)}
    (columns : ∀ entry ∈ entries, isQuiet entry.1.toList = true) :
    Block lineEnd ((commentOn target content).toList ++ entries.flatMap fun entry =>
      (commentOnColumn name entry.1 entry.2).toList) (content :: entries.map (·.2)) := by
  induction entries generalizing target content with
  | nil =>
    rw [List.flatMap_nil, toList_commentOn_append]
    exact Block.last (finishes_comment quietTarget content)
  | cons entry entries ih =>
    have quietColumn : isQuiet ("COLUMN " ++ name ++ "." ++ entry.1).toList = true := by
      simp only [String.toList_append]
      exact isQuiet_append (isQuiet_append (isQuiet_append (by decide) quiet) (by decide))
        (columns entry List.mem_cons_self)
    have later := ih quietColumn entry.2 fun other listed =>
      columns other (List.mem_cons_of_mem entry listed)
    rw [toList_commentOn_append]
    exact Block.cons (finishes_comment quietTarget content) later

theorem continues_labels (first : String) (more : List String) :
    Continues lineEnd
      (literalChars first.toList ++
        ((more.flatMap fun label => ',' :: literalChars label.toList) ++ [')']))
      (first :: more) := by
  induction more generalizing first with
  | nil => exact Continues.literal first (by decide)
  | cons second more ih =>
    have comma : Continues lineEnd (literalChars first.toList ++ [',']) [first] :=
      Continues.literal first (by decide)
    have whole := comma.append (ih second)
    simpa using whole

theorem finishes_createSchema {schema : String} (quiet : isQuiet schema.toList = true) :
    Finishes lineEnd (createSchema schema).toList [] := by
  have text : isQuiet ("CREATE SCHEMA IF NOT EXISTS ".toList ++ schema.toList) = true :=
    isQuiet_append (by decide +kernel) quiet
  have ending : ";".toList = [';'] := rfl
  rw [toList_createSchema, ending, ← List.append_assoc]
  exact (Continues.of_isQuiet text).finishes

theorem finishes_dropSchema {schema : String} (quiet : isQuiet schema.toList = true) :
    Finishes lineEnd (dropSchema schema).toList [] := by
  have text : isQuiet ("DROP SCHEMA IF EXISTS ".toList ++ (schema.toList ++ " CASCADE".toList)) =
      true :=
    isQuiet_append (by decide +kernel) (isQuiet_append quiet (by decide))
  have ending : " CASCADE;".toList = " CASCADE".toList ++ [';'] := rfl
  rw [toList_dropSchema, ending, ← List.append_assoc, ← List.append_assoc, List.append_assoc _ _
    " CASCADE".toList]
  exact (Continues.of_isQuiet text).finishes

end Sql

namespace SqlObject

def literals (object : SqlObject) : List String :=
  object.labels ++ object.comment?.toList ++ object.commented.map (·.2)

theorem literals_enum (definition : EnumType) :
    (SqlObject.enum definition).literals = definition.labels ++ [definition.comment] :=
  List.append_nil _

theorem literals_composite (definition : CompositeType) :
    (SqlObject.composite definition).literals =
      definition.comment :: (SqlObject.composite definition).commented.map (·.2) := rfl

theorem literals_table (definition : Table) :
    (SqlObject.table definition).literals =
      definition.comment :: (SqlObject.table definition).commented.map (·.2) := rfl

variable {lineEnd : Sql.LineEnd}

theorem isQuiet_commented (object : SqlObject) :
    ∀ entry ∈ object.commented, Sql.isQuiet entry.1.toList = true := by
  intro entry listed
  obtain ⟨column, _, rfl⟩ := List.mem_map.1 listed
  exact column.name.isQuiet

theorem isQuiet_block (object : SqlObject)
    (types : ∀ column ∈ object.columns, Sql.HarmlessType column.type.text) :
    Sql.isQuiet object.block = true := by
  apply Sql.isQuiet_blockOf
  · intro described listed
    obtain ⟨column, _, rfl⟩ := List.mem_map.1 listed
    exact column.name.isQuiet
  · intro described listed
    obtain ⟨column, isColumn, rfl⟩ := List.mem_map.1 listed
    exact types column isColumn

theorem isQuiet_target {keyword : String} (quiet : Sql.isQuiet keyword.toList = true)
    (name : QualifiedName) : Sql.isQuiet (keyword ++ name.text).toList = true := by
  rw [String.toList_append]
  exact Sql.isQuiet_append quiet name.isQuiet

theorem block_create_enum (definition : EnumType) :
    Sql.Block lineEnd (SqlObject.enum definition).create.toList
      (SqlObject.enum definition).literals := by
  obtain ⟨first, more, labelled⟩ := List.exists_cons_of_ne_nil definition.labels_ne_nil
  have ending : ");\n".toList = [')', ';', '\n'] := rfl
  have opening : Sql.isQuiet ("CREATE TYPE ".toList ++
      (definition.qualifiedName.text.toList ++ " AS ENUM\n\t(".toList)) = true :=
    Sql.isQuiet_append (by decide)
      (Sql.isQuiet_append definition.qualifiedName.isQuiet (by decide))
  have target : Sql.isQuiet ("TYPE " ++ definition.qualifiedName.text).toList = true :=
    isQuiet_target (by decide) definition.qualifiedName
  have created : Sql.Finishes lineEnd _ _ :=
    ((Sql.Continues.of_isQuiet opening).append (Sql.continues_labels first more)).finishes
  have comments : Sql.Block lineEnd _ _ :=
    .last (Sql.finishes_comment target definition.comment)
  rw [← Sql.toList_commentOn_append, List.append_nil] at comments
  rw [literals_enum, toList_create_enum, labelled, Sql.toList_createEnum, ending]
  simpa only [List.append_assoc, List.cons_append, List.nil_append] using
    Sql.Block.cons created comments

theorem block_columns (object : SqlObject)
    (types : ∀ column ∈ object.columns, Sql.HarmlessType column.type.text)
    {opening : List Char} (quiet : Sql.isQuiet opening = true) (name : QualifiedName)
    {target : String} (quietTarget : Sql.isQuiet target.toList = true) (content : String) :
    Sql.Block lineEnd (opening ++ (object.block ++ (");\n".toList ++
        ((Sql.commentOn target content).toList ++ object.commented.flatMap fun entry =>
          (Sql.commentOnColumn name.text entry.1 entry.2).toList))))
      (content :: object.commented.map (·.2)) := by
  have ending : ");\n".toList = [')', ';', '\n'] := rfl
  have text : Sql.isQuiet (opening ++ (object.block ++ [')'])) = true :=
    Sql.isQuiet_append quiet (Sql.isQuiet_append (isQuiet_block object types) (by decide))
  have created : Sql.Finishes lineEnd _ _ := (Sql.Continues.of_isQuiet text).finishes
  have comments : Sql.Block lineEnd _ _ :=
    Sql.block_comments name.isQuiet quietTarget content (isQuiet_commented object)
  rw [ending]
  simpa only [List.append_assoc, List.cons_append, List.nil_append] using
    Sql.Block.cons created comments

theorem block_create_composite {definition : CompositeType}
    (types : ∀ column ∈ definition.columns, Sql.HarmlessType column.type.text) :
    Sql.Block lineEnd (SqlObject.composite definition).create.toList
      (SqlObject.composite definition).literals := by
  have opening : Sql.isQuiet ("CREATE TYPE ".toList ++
      (definition.qualifiedName.text.toList ++ " AS\n(\n".toList)) = true :=
    Sql.isQuiet_append (by decide)
      (Sql.isQuiet_append definition.qualifiedName.isQuiet (by decide))
  have target : Sql.isQuiet ("TYPE " ++ definition.qualifiedName.text).toList = true :=
    isQuiet_target (by decide) definition.qualifiedName
  have block : Sql.Block lineEnd _ _ := block_columns (.composite definition) types opening
    definition.qualifiedName target definition.comment
  rw [literals_composite, toList_create_composite]
  simpa only [List.append_assoc] using block

theorem block_create_table {definition : Table}
    (types : ∀ column ∈ definition.columns, Sql.HarmlessType column.type.text) :
    Sql.Block lineEnd (SqlObject.table definition).create.toList
      (SqlObject.table definition).literals := by
  have keyword : Sql.isQuiet (if definition.options.unlogged then "CREATE UNLOGGED TABLE"
      else "CREATE TABLE").toList = true := by
    cases definition.options.unlogged <;> decide
  have opening : Sql.isQuiet ((if definition.options.unlogged then "CREATE UNLOGGED TABLE"
      else "CREATE TABLE").toList ++ (" IF NOT EXISTS ".toList ++
        (definition.qualifiedName.text.toList ++ "\n(\n".toList))) = true :=
    Sql.isQuiet_append keyword (Sql.isQuiet_append (by decide)
      (Sql.isQuiet_append definition.qualifiedName.isQuiet (by decide)))
  have target : Sql.isQuiet ("TABLE " ++ definition.qualifiedName.text).toList = true :=
    isQuiet_target (by decide) definition.qualifiedName
  have block : Sql.Block lineEnd _ _ := block_columns (.table definition) types opening
    definition.qualifiedName target definition.comment
  rw [literals_table, toList_create_table]
  simpa only [List.append_assoc] using block

theorem exists_reads_create {object : SqlObject}
    (types : ∀ column ∈ object.columns, Sql.HarmlessType column.type.text)
    (schema : ∀ name, object = .schema name → Sql.isQuiet name.toList = true) :
    ∃ read, read.flatMap Sql.literalsOf = object.literals ∧
      Sql.Reads lineEnd object.create read := by
  cases object with
  | schema name => exact (Sql.finishes_createSchema (schema name rfl)).exists_reads
  | enum definition => exact (block_create_enum definition).exists_reads
  | composite definition => exact (block_create_composite types).exists_reads
  | table definition => exact (block_create_table types).exists_reads

end SqlObject

def Statement.literals : Statement → List String
  | .drop _ => []
  | .create object => object.literals

theorem exists_forall₂ {α β : Type} {related : α → β → Prop} {items : List α}
    (each : ∀ item ∈ items, ∃ other, related item other) :
    ∃ others, List.Forall₂ related items others := by
  induction items with
  | nil => exact ⟨[], .nil⟩
  | cons item items ih =>
    obtain ⟨other, here⟩ := each item List.mem_cons_self
    obtain ⟨others, later⟩ := ih fun next listed => each next (List.mem_cons_of_mem item listed)
    exact ⟨other :: others, .cons here later⟩

namespace Emission

variable {catalog : Catalog} {filter : NameFilter} {emission : Emission}
  {lineEnd : Sql.LineEnd}

/-- The script reads as its statements, each as if it stood alone, and the literals in it are the
labels and comments of the objects. -/
def Contains (emission : Emission) (lineEnd : Sql.LineEnd) (destructive : Bool)
    (script : String) : Prop :=
  ∃ reads, List.Forall₂ (fun statement read => Sql.lex lineEnd statement.text = some read)
      (emission.statements destructive) reads ∧
    Sql.lex lineEnd script = some reads.flatten ∧
    reads.flatten.flatMap Sql.literalsOf = emission.objects.flatMap (·.literals)

theorem flatMap_literals_statementsFor (destructive : Bool) (object : SqlObject) :
    (statementsFor destructive object).flatMap (·.literals) = object.literals := by
  cases object with
  | schema name => cases destructive <;> rfl
  | enum definition => exact List.flatMap_singleton _ _
  | composite definition => exact List.flatMap_singleton _ _
  | table definition => exact List.flatMap_singleton _ _

theorem flatMap_literals_statements (emission : Emission) (destructive : Bool) :
    (emission.statements destructive).flatMap (·.literals) =
      emission.objects.flatMap (·.literals) := by
  rw [statements, List.flatMap_assoc]
  exact List.flatMap_congr fun object _ => flatMap_literals_statementsFor destructive object

theorem isQuiet_schema (reachable : catalog.Reachable)
    (built : ofCatalog catalog filter = .ok emission) {name : String}
    (listed : .schema name ∈ emission.objects) : Sql.isQuiet name.toList = true := by
  obtain ⟨definitions, known, objects⟩ := exists_definitions reachable built
  rw [objects] at listed
  rcases List.mem_append.1 listed with first | later
  · obtain ⟨schema, _, same⟩ := List.mem_map.1 first
    rw [← SqlObject.schema.inj same]
    exact schema.isQuiet
  · exact absurd (known later) Catalog.schema_not_mem_objects

theorem exists_reads_statement (reachable : catalog.Reachable)
    (built : ofCatalog catalog filter = .ok emission)
    (types : ∀ object ∈ emission.objects, ∀ column ∈ object.columns,
      Sql.HarmlessType column.type.text) (destructive : Bool) :
    ∀ statement ∈ emission.statements destructive, ∃ read,
      read.flatMap Sql.literalsOf = statement.literals ∧
        Sql.Reads lineEnd statement.text read := by
  intro statement stated
  obtain ⟨object, listed, own⟩ := List.mem_flatMap.1 stated
  have created : ∃ read, read.flatMap Sql.literalsOf = object.literals ∧
      Sql.Reads lineEnd object.create read := by
    refine SqlObject.exists_reads_create (types object listed) ?_
    rintro name rfl
    exact isQuiet_schema reachable built listed
  cases object with
  | schema name =>
    have dropped : Sql.Finishes lineEnd (Sql.dropSchema name).toList [] :=
      Sql.finishes_dropSchema (isQuiet_schema reachable built listed)
    cases destructive with
    | true =>
      rcases List.mem_cons.1 own with rfl | last
      · exact dropped.exists_reads
      · obtain rfl := List.mem_singleton.1 last
        exact created
    | false =>
      obtain rfl := List.mem_singleton.1 own
      exact created
  | enum definition =>
    obtain rfl := List.mem_singleton.1 own
    exact created
  | composite definition =>
    obtain rfl := List.mem_singleton.1 own
    exact created
  | table definition =>
    obtain rfl := List.mem_singleton.1 own
    exact created

theorem contains_script (reachable : catalog.Reachable)
    (built : ofCatalog catalog filter = .ok emission)
    (types : ∀ object ∈ emission.objects, ∀ column ∈ object.columns,
      Sql.HarmlessType column.type.text) {header : Option String}
    (comment : ∀ line ∈ header, line = "" ∨ Sql.IsComment lineEnd line) (destructive : Bool) :
    emission.Contains lineEnd destructive (emission.script header destructive) := by
  have single : ∀ statement ∈ emission.statements destructive, ∃ read,
      read.flatMap Sql.literalsOf = statement.literals ∧ Sql.Reads lineEnd statement.text read :=
    exists_reads_statement reachable built types destructive
  obtain ⟨reads, each⟩ := exists_forall₂ single
  refine ⟨reads, each.imp fun _ _ read => Sql.lex_eq_some read.2.alone, ?_, ?_⟩
  · apply Sql.lex_eq_some
    apply Sql.Lexes.script comment
    rw [List.forall₂_map_left_iff]
    exact each.imp fun _ _ read => read.2.inScript
  · rw [← flatMap_literals_statements emission destructive]
    generalize emission.statements destructive = statements at each
    induction each with
    | nil => rfl
    | cons read _ ih =>
      rw [List.flatten_cons, List.flatMap_append, read.1, ih, List.flatMap_cons]

end Emission

theorem exists_emission_of_success {settings : Settings} {filter : NameFilter} {dryRun : Bool}
    {tree : FileTree} {workplace : Location} {report : Report}
    (done : (generate settings filter dryRun tree workplace).outcome = .ok report)
    (succeeded : report.success = true) :
    ∃ catalog emission, settings.catalog tree workplace = .ok catalog ∧
      Emission.ofCatalog catalog filter = .ok emission ∧
      report.sql = emission.script settings.headerText (settings.destructive.getD false) := by
  rcases generate_cases settings filter tree workplace with
    ⟨halt, halted⟩ | ⟨failure, failed⟩ | ⟨catalog, emission, made, built⟩
  · cases (generate_of_halt halted).symm.trans done
  · cases (failed dryRun).symm.trans done
    cases succeeded
  · refine ⟨catalog, emission, made, built, ?_⟩
    rw [generate_of_emission made built] at done
    cases dryRun with
    | true =>
      cases done
      rfl
    | false => exact sql_deliver done

def Settings.HarmlessTypes (settings : Settings) (filter : NameFilter) (tree : FileTree)
    (workplace : Location) : Prop :=
  ∀ catalog emission, settings.catalog tree workplace = .ok catalog →
    Emission.ofCatalog catalog filter = .ok emission →
      ∀ object ∈ emission.objects, ∀ column ∈ object.columns, Sql.HarmlessType column.type.text

/-- The script of a run that succeeds reads as its statements one by one, whatever the labels and
comments hold. -/
theorem generate_contains {settings : Settings} {filter : NameFilter} {dryRun : Bool}
    {tree : FileTree} {workplace : Location} {report : Report} {lineEnd : Sql.LineEnd}
    (done : (generate settings filter dryRun tree workplace).outcome = .ok report)
    (succeeded : report.success = true)
    (comment : ∀ line ∈ settings.headerText, line = "" ∨ Sql.IsComment lineEnd line)
    (types : settings.HarmlessTypes filter tree workplace) :
    ∃ catalog emission, settings.catalog tree workplace = .ok catalog ∧
      Emission.ofCatalog catalog filter = .ok emission ∧
      emission.Contains lineEnd (settings.destructive.getD false) report.sql := by
  obtain ⟨catalog, emission, made, built, script⟩ := exists_emission_of_success done succeeded
  refine ⟨catalog, emission, made, built, ?_⟩
  have reachable : catalog.Reachable := by
    rcases settings.catalog_cases tree workplace with ⟨obstacle, failed⟩ |
      ⟨collections, other, _, merged, found⟩
    · cases failed.symm.trans made
    · cases found.symm.trans made
      exact .merge .empty merged
  rw [script]
  exact Emission.contains_script reachable built (types catalog emission made built) comment _

namespace Sample

def anyLineEnd : Sql.LineEnd := ⟨fun c => c == '\n' || c == '\r', rfl⟩

def paintSettings : Settings :=
  { fromDirectory "defs" with destructive := some true, header := some ⟨"-- 'paint';", true⟩ }

theorem generate_contains_paint :
    ∃ report, (generate paintSettings acceptAll true paintTree []).outcome = .ok report ∧
      ∃ catalog emission, paintSettings.catalog paintTree [] = .ok catalog ∧
        Emission.ofCatalog catalog acceptAll = .ok emission ∧
        emission.Contains anyLineEnd true report.sql := by
  have run : (generate paintSettings acceptAll true paintTree []).outcome.toOption.any (·.success) =
      true := by
    decide +kernel
  cases done : (generate paintSettings acceptAll true paintTree []).outcome with
  | error halt =>
    rw [done] at run
    cases run
  | ok report =>
    rw [done] at run
    have oneLine : "-- 'paint';".toList.all (fun c => !anyLineEnd.test c) = true := by decide
    have comment : Sql.IsComment anyLineEnd "-- 'paint';" :=
      ⟨by decide, by simpa using List.all_eq_true.1 oneLine⟩
    have types : paintSettings.HarmlessTypes acceptAll paintTree [] := by
      intro catalog emission made built
      have check : ((paintSettings.catalog paintTree []).toOption.all fun catalog =>
          (Emission.ofCatalog catalog acceptAll).toOption.all fun emission =>
            emission.objects.all fun object => object.columns.all fun column =>
              decide (Sql.HarmlessType column.type.text)) = true := by
        decide +kernel
      simpa [made, built, Except.toOption] using check
    refine ⟨report, rfl, generate_contains done run (fun line given => .inr ?_) types⟩
    obtain rfl := Option.mem_some_iff.1 given
    exact comment

end Sample

end SchemaScript
