import SchemaScript.CommandLine.Arguments
import SchemaScript.Log.Account

/-!
The program as it is called from a shell. It reads its arguments, then its settings, and generates
a script; the log goes to the error output, so that a dry run shows the script and nothing else.
-/

namespace SchemaScript.CommandLine

open Log

structure Start where
  surroundings : Surroundings
  cache : SettingsCache
  tree : FileTree
  workplace : Location
  time : Moment

inductive Stop
  | level (fault : LevelFault)
  | settings (fault : SettingsFault)
  | halt (halt : Halt)

def Stop.message : Stop → String
  | .level fault => fault.message
  | .settings fault => fault.message
  | .halt cause => cause.message

inductive Ending
  | finished (status : Nat)
  | left (status : Nat)
  | stopped (stop : Stop)

structure Call where
  output : String
  errorOutput : String
  cache : SettingsCache
  tree : FileTree
  ending : Ending

def Start.end (start : Start) (output errorOutput : String) (ending : Ending) : Call :=
  ⟨output, errorOutput, start.cache, start.tree, ending⟩

/-- The settings that arguments override. Switches only ever change a setting one way. -/
def Arguments.settings (arguments : Arguments) : Settings where
  pathIn := arguments.pathIn
  pathOut := arguments.pathOut
  outputFile := arguments.outputFile
  recursive := if arguments.noRecursive then some false else .none
  maxWorkers := .none
  destructive := if arguments.destructive then some true else .none
  header := .none

def Arguments.filter (arguments : Arguments) : NameFilter :=
  (globFilter? arguments.filters).getD acceptAll

def Arguments.logOutput (arguments : Arguments) (surroundings : Surroundings) :
    Except LevelFault Output := do
  let word :=
    if arguments.verbose then "DEBUG" else (surroundings.value? "LOG_LEVEL").getD "INFO"
  return ⟨← thresholdOfWord word,
    .choose arguments.jsonLogs (surroundings.value? "LOG_FORMAT")⟩

def commandSource : Source := ⟨"pgspell.cli", .cli⟩

def startNotice (settings : Settings) (path : String) : Notice :=
  commandSource.notice .info
    (versionLine ++ ": " ++ settings.pathIn.getD Value.null.plain ++ " -> " ++ path)

def failedNotices (report : Report) : List Notice :=
  commandSource.notice .error "Generation failed!" ::
    report.errors.map fun error => commandSource.notice .error ("   - " ++ error)

def sectionsText (sections : List (String × Nat)) : String :=
  (Value.mapping (sections.map fun (name, count) => (.text name, .integer count))).shown

def generatedNotice (report : Report) : Notice :=
  commandSource.notice .info
    ("Generated " ++ toString report.objectCount ++ " objects: " ++ sectionsText report.sections)

def closingNotices (dryRun : Bool) (report : Report) : List Notice :=
  if !report.success then failedNotices report
  else if dryRun then []
  else [generatedNotice report]

def perform (start : Start) (log : List Notice → String) (settings : Settings) (path : String)
    (arguments : Arguments) : Call :=
  let run :=
    generate settings arguments.filter arguments.dryRun start.tree start.workplace
  let notices := startNotice settings path ::
    runNotices settings arguments.filter arguments.dryRun start.tree start.workplace
  let start := { start with tree := run.tree }
  match run.outcome with
  | .error halt => start.end "" (log notices) (.stopped (.halt halt))
  | .ok report =>
    start.end (if report.success && arguments.dryRun then report.sql else "")
      (log (notices ++ closingNotices arguments.dryRun report))
      (.finished (if report.success then 0 else 1))

structure Settled where
  settings : Settings
  path : String
  cache : SettingsCache

/-- Arguments win over the environment. -/
def settle (surroundings : Surroundings) (cache : SettingsCache) (arguments : Arguments) :
    Except SettingsFault Settled := do
  let (kept, cache) ← cache.get surroundings
  let settings := kept.override arguments.settings
  return ⟨settings, ← settings.outputPath, cache⟩

def runArguments (start : Start) (arguments : Arguments) : Call :=
  match arguments.logOutput start.surroundings with
  | .error fault => start.end "" "" (.stopped (.level fault))
  | .ok output =>
    match settle start.surroundings start.cache arguments with
    | .error fault => start.end "" "" (.stopped (.settings fault))
    | .ok ⟨settings, path, cache⟩ =>
      let log (notices : List Notice) : String :=
        String.join (notices.map fun notice => output.write start.time notice.record)
      perform { start with cache } log settings path arguments

def call (start : Start) (words : List String) : Call :=
  match request words with
  | .error fault => start.end "" (usageError fault.message) (.left 2)
  | .ok .help => start.end help "" (.left 0)
  | .ok .version => start.end (versionLine ++ "\n") "" (.left 0)
  | .ok (.run arguments) => runArguments start arguments

end SchemaScript.CommandLine
