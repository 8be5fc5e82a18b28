import SchemaScript.Value

/-!
Levels of log records and their contexts. A threshold is a number, since a caller may set one
between the levels. Blocks of a program are nested, and each may name what it works on; it hides
what the blocks around it say under the same name, also by saying that there is nothing.
-/

namespace SchemaScript.Log

inductive Level
  | debug
  | info
  | warning
  | error
  | critical
deriving DecidableEq, Repr

namespace Level

def number : Level → Int
  | .debug => 10
  | .info => 20
  | .warning => 30
  | .error => 40
  | .critical => 50

def name : Level → String
  | .debug => "DEBUG"
  | .info => "INFO"
  | .warning => "WARNING"
  | .error => "ERROR"
  | .critical => "CRITICAL"

def ofWord? (word : String) : Option Level :=
  [Level.debug, .info, .warning, .error, .critical].find? fun level =>
    String.ofList (level.name.toList.map Char.toLower) == word

end Level

inductive LevelFault
  | unknown (text : String)
  | notLevel (value : Value)
deriving Repr

def LevelFault.message : LevelFault → String
  | .unknown text => "Unknown level: " ++ Text.quoted text
  | .notLevel value => "Level not an integer or a valid string: " ++ value.plain

def thresholdNames : List (String × Int) :=
  [("CRITICAL", 50), ("FATAL", 50), ("ERROR", 40), ("WARN", 30), ("WARNING", 30), ("INFO", 20),
    ("DEBUG", 10), ("NOTSET", 0)]

/-- The one name that is taken for a threshold but is none: it names the default line format. -/
def formatName : String := "BASIC_FORMAT"

def basicFormat : String := "%(levelname)s:%(name)s:%(message)s"

/-- Upper case as far as names of levels go. Two letters outside ASCII become letters inside. -/
def upperLetter (c : Char) : Char :=
  if c = 'ı' then 'I' else if c = 'ſ' then 'S' else c.toUpper

def thresholdOfWord (word : String) : Except LevelFault Int :=
  let name := String.ofList (word.toList.map upperLetter)
  if name = formatName then .error (.unknown basicFormat)
  else .ok ((thresholdNames.lookup name).getD Level.info.number)

def threshold : Value → Except LevelFault Int
  | .text word => thresholdOfWord word
  | value =>
    match value.integer? with
    | some n => .ok n
    | none => .error (.notLevel value)

inductive Aspect
  | sourceFile
  | objectName
  | objectKind
  | component
  | operation
deriving DecidableEq, Repr

namespace Aspect

def all : List Aspect := [.sourceFile, .objectName, .objectKind, .component, .operation]

def name : Aspect → String
  | .sourceFile => "source_file"
  | .objectName => "object_name"
  | .objectKind => "object_kind"
  | .component => "component"
  | .operation => "operation"

end Aspect

structure Block where
  aspects : List (Aspect × Value)
  extra : List (Value × Value)

structure Context where
  aspect : Aspect → Value
  extra : List (Value × Value)

def updated (entries changes : List (Value × Value)) : List (Value × Value) :=
  changes.foldl (fun entries (key, value) => Value.putEntry entries key value) entries

namespace Context

def empty : Context := ⟨fun _ => .null, []⟩

def enter (context : Context) (block : Block) : Context where
  aspect aspect := (block.aspects.lookup aspect).getD (context.aspect aspect)
  extra := updated context.extra block.extra

def within (blocks : List Block) : Context := blocks.foldl enter empty

theorem within_append_singleton (blocks : List Block) (block : Block) :
    within (blocks ++ [block]) = (within blocks).enter block := by
  simp [within]

def isNothing : Value → Bool
  | .null => true
  | _ => false

/-- The aspects that have a value, then the further entries, which may hide them. -/
def entries (context : Context) : List (Value × Value) :=
  let named := Aspect.all.filterMap fun aspect =>
    if isNothing (context.aspect aspect) then none
    else some (Value.text aspect.name, context.aspect aspect)
  updated named context.extra

end Context

end SchemaScript.Log
