import SchemaScript.Dependency
import SchemaScript.Sql
import SchemaScript.Text.Glob

/-!
The order in which objects are created. Composite types and tables are expanded by their walks;
the walks together, read backwards, put every dependency before what depends on it. A whole script
has a section for each kind of object and creates no object twice.
-/

namespace SchemaScript

abbrev NameFilter := String → Bool

def acceptAll : NameFilter := fun _ => true

/-- Accepts what any of the patterns spells. Without patterns there is no filter. -/
def globFilter? (patterns : List String) : Option NameFilter :=
  if patterns.isEmpty then none
  else some fun name => patterns.any fun pattern => Text.globMatches pattern name

namespace Catalog

variable (catalog : Catalog)

def schemaObjects (filter : NameFilter) : List SqlObject :=
  distinctBy (·.key) <|
    (catalog.schemas.map fun schema => SqlObject.schema schema.text).filter fun o => filter o.name

def enumObjects (filter : NameFilter) : List SqlObject :=
  distinctBy (·.key) <| (catalog.enums.items.map SqlObject.enum).filter fun o => filter o.name

def compositeRoots (filter : NameFilter) : List SqlObject :=
  (catalog.composites.items.map SqlObject.composite).filter fun o => filter o.name

def tableRoots (filter : NameFilter) : List SqlObject :=
  (catalog.tables.items.map SqlObject.table).filter fun o => filter o.name

/-- Each object once, dependencies first. The objects come in walking order, dependents first. -/
def inCreationOrder (walked : List SqlObject) : List SqlObject :=
  distinctBy (·.key) walked.reverse

def expand (roots : List SqlObject) : Except Cycle (List SqlObject) :=
  let walks := catalog.walkAll roots
  match walks.findSome? (·.cycle?) with
  | some cycle => .error cycle
  | none => .ok (inCreationOrder (walks.flatMap (·.visited)))

def build (roots : List SqlObject) (withDependencies : Bool) : Except Cycle (List SqlObject) :=
  if withDependencies then catalog.expand roots else .ok (inCreationOrder roots)

def buildKind (kind : ObjectKind) (filter : NameFilter) (withDependencies : Bool) :
    Except Cycle (List SqlObject) :=
  match kind with
  | .schema => .ok (catalog.schemaObjects filter)
  | .enum => .ok (catalog.enumObjects filter)
  | .composite => catalog.build (catalog.compositeRoots filter) withDependencies
  | .table => catalog.build (catalog.tableRoots filter) withDependencies

end Catalog

structure Section where
  name : String
  objects : List SqlObject
deriving DecidableEq, Repr

/-- Leaves out of each section what an earlier one has. -/
def withoutRepeats (seen : List ObjectKey) : List Section → List Section
  | [] => []
  | part :: rest =>
    let fresh := distinctFrom (·.key) seen part.objects
    ⟨part.name, fresh⟩ :: withoutRepeats (seen ++ fresh.map (·.key)) rest

inductive Statement
  | drop (schema : String)
  | create (object : SqlObject)
deriving DecidableEq, Repr

def Statement.text : Statement → String
  | .drop schema => Sql.dropSchema schema
  | .create object => object.create

structure Emission where
  sections : List Section
deriving DecidableEq, Repr

namespace Emission

/-- The sections of a script for a catalog. All schemas are created, whatever the filter. -/
def ofCatalog (catalog : Catalog) (filter : NameFilter) : Except Cycle Emission := do
  let composites ← catalog.expand (catalog.compositeRoots filter)
  let tables ← catalog.expand (catalog.tableRoots filter)
  return ⟨withoutRepeats []
    [⟨"schemas", catalog.schemaObjects acceptAll⟩, ⟨"enums", catalog.enumObjects filter⟩,
      ⟨"composites", composites⟩, ⟨"tables", tables⟩]⟩

def objects (emission : Emission) : List SqlObject := emission.sections.flatMap (·.objects)

def counts (emission : Emission) : List (String × Nat) :=
  emission.sections.map fun part => (part.name, part.objects.length)

def size (emission : Emission) : Nat := Number.total (emission.counts.map (·.2))

def statementsFor (destructive : Bool) (object : SqlObject) : List Statement :=
  match object with
  | .schema name => if destructive then [.drop name, .create object] else [.create object]
  | _ => [.create object]

def statements (emission : Emission) (destructive : Bool) : List Statement :=
  emission.objects.flatMap (statementsFor destructive)

def isUnicode (emission : Emission) : Bool := emission.objects.all (·.isUnicode)

def script (emission : Emission) (header : Option String) (destructive : Bool) : String :=
  renderScript header ((emission.statements destructive).map (·.text))

end Emission

end SchemaScript
