import SchemaScript.Text.Character
import SchemaScript.Text.Quoted

/-!
Arguments of the command line, and what the program tells about its own use. An option may be cut
short as long as no other option begins the same way; its value follows it, or stands behind an
equals sign. One-letter options may share a dash.
-/

namespace SchemaScript.CommandLine

def programName : String := "generate_sql.py"

def versionLine : String := "pgspell 0.3.0"

def lines (texts : List String) : String := String.join (texts.map (· ++ "\n"))

def usage : String :=
  lines
    ["usage: " ++ programName ++ " [-h] [--path-in PATH_IN] [--path-out PATH_OUT]",
      "                       [--output-file OUTPUT_FILE] [--no-recursive]",
      "                       [--filter GLOB] [--destructive] [--dry-run]",
      "                       [--json-logs] [--verbose] [--version]"]

def optionLines : List String :=
  ["options:",
    "  -h, --help            show this help message and exit",
    "  --path-in PATH_IN     Directory containing YAML definitions",
    "  --path-out PATH_OUT   Directory for the generated script",
    "  --output-file OUTPUT_FILE",
    "                        Generated script file name",
    "  --no-recursive        Only read definitions directly inside --path-in",
    "  --filter GLOB         Only emit enums/composites/tables whose qualified name",
    "                        matches (repeatable)",
    "  --destructive         Drop each schema (CASCADE) before creating it",
    "  --dry-run             Print DDL to stdout without writing",
    "  --json-logs           JSON-formatted logs",
    "  --verbose, -v         Enable verbose logging",
    "  --version             show program's version number and exit"]

def exampleLines : List String :=
  ["Examples:",
    "  python scripts/" ++ programName ++ " --dry-run                  # Preview DDL",
    "  python scripts/" ++ programName ++ " --path-in defs --path-out build",
    "  python scripts/" ++ programName ++ " --filter 'sales.*' --filter 'public.color'"]

def variableLines : List String :=
  ["Environment Variables:",
    "  PGSPELL_PATH_IN       Definitions directory (default: ./definitions)",
    "  PGSPELL_PATH_OUT      Output directory (default: .)",
    "  PGSPELL_OUTPUT_FILE   Output file name (default: struct.sql)",
    "  PGSPELL_RECURSIVE     Search subdirectories (default: true)",
    "  PGSPELL_MAX_WORKERS   Parallel parse limit (default: CPU count)",
    "  PGSPELL_DESTRUCTIVE   Emit DROP SCHEMA ... CASCADE (default: false)",
    "  LOG_LEVEL             Log level (default: INFO)",
    "  LOG_FORMAT            'json' for structured logs",
    "        "]

def help : String :=
  usage ++
    lines
      (["", "Generate PostgreSQL DDL from YAML schema definitions", ""] ++ optionLines ++ [""] ++
        exampleLines ++ [""] ++ variableLines)

def usageError (message : String) : String := usage ++ programName ++ ": error: " ++ message ++ "\n"

inductive Switch
  | help
  | pathIn
  | pathOut
  | outputFile
  | noRecursive
  | filter
  | destructive
  | dryRun
  | jsonLogs
  | verbose
  | version
deriving DecidableEq, Repr

def spellings : List (String × Switch) :=
  [("-h", .help), ("--help", .help), ("--path-in", .pathIn), ("--path-out", .pathOut),
    ("--output-file", .outputFile), ("--no-recursive", .noRecursive), ("--filter", .filter),
    ("--destructive", .destructive), ("--dry-run", .dryRun), ("--json-logs", .jsonLogs),
    ("--verbose", .verbose), ("-v", .verbose), ("--version", .version)]

namespace Switch

def takesValue : Switch → Bool
  | .pathIn => true
  | .pathOut => true
  | .outputFile => true
  | .filter => true
  | _ => false

def title (switch : Switch) : String :=
  "/".intercalate ((spellings.filter (·.2 == switch)).map (·.1))

end Switch

inductive UsageFault
  | ambiguous (option : String) (candidates : List String)
  | valueMissing (switch : Switch)
  | valueIgnored (switch : Switch) (value : String)
  | unrecognized (words : List String)
deriving DecidableEq, Repr

def UsageFault.message : UsageFault → String
  | .ambiguous option candidates =>
    "ambiguous option: " ++ option ++ " could match " ++ ", ".intercalate candidates
  | .valueMissing switch => "argument " ++ switch.title ++ ": expected one argument"
  | .valueIgnored switch value =>
    "argument " ++ switch.title ++ ": ignored explicit argument " ++ Text.quoted value
  | .unrecognized words => "unrecognized arguments: " ++ " ".intercalate words

structure Arguments where
  pathIn : Option String
  pathOut : Option String
  outputFile : Option String
  noRecursive : Bool
  filters : List String
  destructive : Bool
  dryRun : Bool
  jsonLogs : Bool
  verbose : Bool
deriving DecidableEq, Repr

def Arguments.none : Arguments :=
  ⟨.none, .none, .none, false, [], false, false, false, false⟩

inductive Request
  | help
  | version
  | run (arguments : Arguments)
deriving DecidableEq, Repr

structure Attached where
  byMark : Bool
  text : List Char
deriving DecidableEq, Repr

inductive Meaning
  | plain
  | dashes
  | unknown
  | option (switch : Switch) (attached : Option Attached)
deriving DecidableEq, Repr

structure Word where
  text : String
  meaning : Meaning
deriving DecidableEq, Repr

def cutAtMark (cs : List Char) : List Char × Option Attached :=
  match cs.dropWhile (· != '=') with
  | [] => (cs, none)
  | _ :: rest => (cs.takeWhile (· != '='), some ⟨true, rest⟩)

/-- Spellings that a word may stand for, with the value attached to them. -/
def candidates (cs : List Char) : List (String × Switch × Option Attached) :=
  match cs with
  | '-' :: '-' :: _ =>
    let (start, attached) := cutAtMark cs
    (spellings.filter fun entry => start.isPrefixOf entry.1.toList).map fun (name, switch) =>
      (name, switch, attached)
  | '-' :: letter :: rest =>
    (spellings.filter fun entry => entry.1.toList == ['-', letter]).map fun (name, switch) =>
      (name, switch, some ⟨false, rest⟩)
  | _ => []

def isUnsignedNumber (cs : List Char) : Bool :=
  match cs.dropWhile Text.isDecimal with
  | [] => !cs.isEmpty
  | '.' :: fraction => !fraction.isEmpty && fraction.all Text.isDecimal
  | _ => false

def isNegativeNumber (cs : List Char) : Bool :=
  match cs with
  | '-' :: rest =>
    isUnsignedNumber rest || (rest.getLast? == some '\n' && isUnsignedNumber rest.dropLast)
  | _ => false

def meaningOf (text : String) : Except UsageFault Meaning :=
  let cs := text.toList
  if cs.head? != some '-' then .ok .plain
  else
    match spellings.lookup text with
    | some switch => .ok (.option switch none)
    | none =>
      if cs.length = 1 then .ok .plain
      else
        let (start, attached) := cutAtMark cs
        match attached, spellings.lookup (String.ofList start) with
        | some attached, some switch => .ok (.option switch (some attached))
        | _, _ =>
          match candidates cs with
          | [] => .ok (if isNegativeNumber cs || cs.contains ' ' then .plain else .unknown)
          | [(_, switch, attached)] => .ok (.option switch attached)
          | several => .error (.ambiguous text (several.map (·.1)))

def wordsOf : List String → Except UsageFault (List Word)
  | [] => .ok []
  | text :: rest =>
    if text = "--" then .ok (⟨text, .dashes⟩ :: rest.map (⟨·, .plain⟩))
    else do
      let meaning ← meaningOf text
      return ⟨text, meaning⟩ :: (← wordsOf rest)

/-- The switches of one word, a value for the last of them, and what is left over. -/
structure Reading where
  switches : List Switch
  value : Option String
  leftOver : Option String
deriving DecidableEq, Repr

def readTogether (switch : Switch) (byMark : Bool) : List Char → Except UsageFault Reading
  | [] => .error (.valueIgnored switch "")
  | letter :: rest =>
    if byMark || letter = '-' then .error (.valueIgnored switch (String.ofList (letter :: rest)))
    else
      match spellings.lookup (String.ofList ['-', letter]) with
      | none => .ok ⟨[switch], none, some (String.ofList ('-' :: letter :: rest))⟩
      | some next =>
        match rest with
        | [] => .ok ⟨[switch, next], none, none⟩
        | '=' :: text =>
          .error (.valueIgnored next (String.ofList text))
        | rest => do
          let reading ← readTogether next false rest
          return { reading with switches := switch :: reading.switches }

def readAttached (isShort : Bool) (switch : Switch) (attached : Attached) :
    Except UsageFault Reading :=
  if switch.takesValue then .ok ⟨[switch], some (String.ofList attached.text), none⟩
  else if isShort then readTogether switch attached.byMark attached.text
  else .error (.valueIgnored switch (String.ofList attached.text))

namespace Arguments

def set (arguments : Arguments) (value : String) : Switch → Arguments
  | .pathIn => { arguments with pathIn := some value }
  | .pathOut => { arguments with pathOut := some value }
  | .outputFile => { arguments with outputFile := some value }
  | .filter => { arguments with filters := arguments.filters ++ [value] }
  | .noRecursive => { arguments with noRecursive := true }
  | .destructive => { arguments with destructive := true }
  | .dryRun => { arguments with dryRun := true }
  | .jsonLogs => { arguments with jsonLogs := true }
  | .verbose => { arguments with verbose := true }
  | .help => arguments
  | .version => arguments

/-- Follows switches in order. One that asks for a text about the program ends it all. -/
def follow (arguments : Arguments) (value : String) : List Switch → Except Request Arguments
  | [] => .ok arguments
  | .help :: _ => .error .help
  | .version :: _ => .error .version
  | switch :: rest => follow (arguments.set value switch) value rest

end Arguments

def isShortWord (text : String) : Bool := text.toList[1]? != some '-'

/-- Reads words in order. Words that are neither options nor their values are reported in the
end. -/
def readWords (arguments : Arguments) (extras : List String) :
    List Word → Except UsageFault Request
  | [] => if extras.isEmpty then .ok (.run arguments) else .error (.unrecognized extras)
  | word :: rest =>
    match word.meaning with
    | .option switch none =>
      if switch.takesValue then
        match rest with
        | ⟨value, .plain⟩ :: rest => readWords (arguments.set value switch) extras rest
        | _ => .error (.valueMissing switch)
      else
        match arguments.follow "" [switch] with
        | .error request => .ok request
        | .ok arguments => readWords arguments extras rest
    | .option switch (some attached) =>
      match readAttached (isShortWord word.text) switch attached with
      | .error fault => .error fault
      | .ok reading =>
        match arguments.follow (reading.value.getD "") reading.switches with
        | .error request => .ok request
        | .ok arguments => readWords arguments (extras ++ reading.leftOver.toList) rest
    | _ => readWords arguments (extras ++ [word.text]) rest

def request (arguments : List String) : Except UsageFault Request := do
  readWords .none [] (← wordsOf arguments)

end SchemaScript.CommandLine
