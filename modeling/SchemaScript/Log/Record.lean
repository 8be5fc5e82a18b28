import SchemaScript.Log.Context
import SchemaScript.Text.Character
import SchemaScript.Value

/-!
Log records and their two forms: a line to be read, and a line of JSON.
-/

namespace SchemaScript.Log

inductive Component
  | loader
  | registry
  | walker
  | service
  | cli
deriving DecidableEq, Repr

namespace Component

def text : Component → String
  | .loader => "loader"
  | .registry => "registry"
  | .walker => "walker"
  | .service => "service"
  | .cli => "cli"

def ofText? (text : String) : Option Component :=
  [Component.loader, .registry, .walker, .service, .cli].find? (·.text == text)

end Component

structure UnknownComponent where
  word : String
deriving DecidableEq, Repr

def UnknownComponent.message (fault : UnknownComponent) : String :=
  Text.quoted fault.word ++ " is not a valid ComponentType"

def Component.read (word : String) : Except UnknownComponent (Option Component) :=
  if word.isEmpty then .ok none
  else
    match Component.ofText? word with
    | some component => .ok (some component)
    | none => .error ⟨word⟩

structure Record where
  logger : String
  level : Level
  message : String
  context : Context
  data : List (Value × Value)
  exception : Option String

/-- The data of a record: its own, hidden by the context, and the component unless either of them
names one. -/
def dataOf (own : List (Value × Value)) (context : Context) (component : Option Component) :
    List (Value × Value) :=
  let data := updated own context.entries
  match component with
  | some component =>
    if (Value.field? data Aspect.component.name).isSome then data
    else data ++ [(.text Aspect.component.name, .text component.text)]
  | none => data

def loggerName (name : String) : String := if name.isEmpty then "root" else name

def exceptionText (name text : String) : String :=
  if text.isEmpty then name else name ++ ": " ++ text

def padded (width : Nat) (text : String) : String :=
  text ++ String.ofList (List.replicate (width - text.length) ' ')

def shownAspects : List (String × Aspect) :=
  [("file", .sourceFile), ("object", .objectName), ("op", .operation)]

def bracketed (context : Context) : String :=
  let parts := shownAspects.filterMap fun (name, aspect) =>
    let value := context.aspect aspect
    if value.isPresent then some (name ++ "=" ++ value.plain) else none
  if parts.isEmpty then "" else " [" ++ ", ".intercalate parts ++ "]"

def readableText (time : Moment) (record : Record) : String :=
  let data := if record.data.isEmpty then "" else " " ++ (Value.mapping record.data).shown
  let exception :=
    match record.exception with
    | some text => "\n" ++ text
    | none => ""
  time.date.isoText ++ " " ++ timeText time ++ " " ++ padded 8 record.level.name ++ " " ++
    record.logger ++ bracketed record.context ++ ": " ++ record.message ++ data ++ exception

/-- Which parts of a record its JSON form has. -/
structure Inclusion where
  timestamp : Bool
  level : Bool
  logger : Bool
  context : Bool
deriving DecidableEq, Repr

def Inclusion.all : Inclusion := ⟨true, true, true, true⟩

def universalText (time : Moment) : String :=
  let fraction :=
    if time.microsecond = 0 then "" else "." ++ paddedNumber 6 time.microsecond
  time.date.isoText ++ "T" ++ timeText time ++ fraction ++ "Z"

def member (name : String) (isIncluded : Bool) (value : Value) : List (Value × Value) :=
  if isIncluded then [(.text name, value)] else []

def recordMembers (inclusion : Inclusion) (time : Moment) (record : Record) :
    List (Value × Value) :=
  member "timestamp" inclusion.timestamp (.text (universalText time)) ++
    member "level" inclusion.level (.text record.level.name) ++
    member "logger" inclusion.logger (.text record.logger) ++
    member "message" true (.text record.message) ++
    member "context" (inclusion.context && !record.context.entries.isEmpty)
      (.mapping record.context.entries) ++
    member "data" (!record.data.isEmpty) (.mapping record.data) ++
    member "exception" record.exception.isSome (.text (record.exception.getD ""))

def jsonText (inclusion : Inclusion) (time : Moment) (record : Record) : String :=
  Json.ofValue (.mapping (recordMembers inclusion time record))

inductive Format
  | readable
  | json (inclusion : Inclusion)
deriving DecidableEq, Repr

/-- JSON is written on request, or where the surroundings ask for it. -/
def Format.choose (wantsJson : Bool) (value? : Option String) : Format :=
  let word := Text.lowerCase (value?.getD "").toList
  if wantsJson || word == "json".toList then .json .all else .readable

structure Output where
  threshold : Int
  format : Format
deriving DecidableEq, Repr

namespace Output

def accepts (output : Output) (level : Level) : Bool := output.threshold ≤ level.number

def write (output : Output) (time : Moment) (record : Record) : String :=
  if !output.accepts record.level then ""
  else
    match output.format with
    | .readable => readableText time record ++ "\n"
    | .json inclusion => jsonText inclusion time record ++ "\n"

end Output

structure Source where
  logger : String
  component : Component
deriving DecidableEq, Repr

structure Notice where
  source : Source
  level : Level
  message : String
  blocks : List Block

def Notice.record (notice : Notice) : Record :=
  let context := Context.within notice.blocks
  { logger := notice.source.logger
    level := notice.level
    message := notice.message
    context := context
    data := dataOf [] context (some notice.source.component)
    exception := none }

def Notice.inside (block : Block) (notice : Notice) : Notice :=
  { notice with blocks := block :: notice.blocks }

end SchemaScript.Log
