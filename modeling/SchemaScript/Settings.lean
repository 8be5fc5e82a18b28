import SchemaScript.FileTree
import SchemaScript.Number.Numeral
import SchemaScript.Sql
import SchemaScript.Text.Character

/-!
Settings of a run. They have defaults, which the environment changes, and a caller may override any
of them. The settings read from the environment are kept until they are dropped.
-/

namespace SchemaScript

/-- Text of a caller. Where it is not Unicode text, a replacement character stands for each lone
surrogate. -/
structure MendedText where
  text : String
  isUnicode : Bool := true
deriving DecidableEq, Repr

structure Settings where
  pathIn : Option String
  pathOut : Option String
  outputFile : Option String
  recursive : Option Bool
  maxWorkers : Option Int
  destructive : Option Bool
  header : Option MendedText
deriving DecidableEq, Repr

inductive SettingsFault
  | workers (fault : Number.NumeralFault)
  | unknownField (name : String)
  | noDirectory
  | noFile
deriving DecidableEq, Repr

def SettingsFault.message : SettingsFault → String
  | .workers fault => fault.message
  | .unknownField name =>
    "GenerateDefaults.__init__() got an unexpected keyword argument '" ++ name ++ "'"
  | .noDirectory => "expected str, bytes or os.PathLike object, not NoneType"
  | .noFile => "join() argument must be str, bytes, or os.PathLike object, not 'NoneType'"

structure Surroundings where
  environment : List (String × String)
  processors : Option Int
deriving DecidableEq, Repr

namespace Surroundings

def value? (surroundings : Surroundings) (name : String) : Option String :=
  surroundings.environment.lookup name

def setVariable (surroundings : Surroundings) (name : String) (value : Option String) :
    Surroundings :=
  let others := surroundings.environment.filter (·.1 != name)
  { surroundings with environment := (value.map ((name, ·))).toList ++ others }

@[simp] theorem value?_setVariable (surroundings : Surroundings) (name : String)
    (value : Option String) : (surroundings.setVariable name value).value? name = value := by
  cases value with
  | some value => simp [setVariable, value?]
  | none =>
    simp only [setVariable, value?, Option.map_none, Option.toList_none, List.nil_append]
    rw [List.lookup_eq_none_iff]
    intro entry member
    have other : entry.1 ≠ name := by simpa using (List.mem_filter.1 member).2
    simpa using Ne.symm other

def defaultWorkers (surroundings : Surroundings) : Int :=
  match surroundings.processors with
  | none => 1
  | some n => if n = 0 then 1 else n

end Surroundings

def truthWords : List String := ["1", "true", "yes", "on"]

/-- Reads a truth value from a variable. Any word that does not say yes says no. -/
def truthSetting (default : Bool) : Option String → Bool
  | none => default
  | some text =>
    if text.isEmpty then default
    else truthWords.contains (String.ofList (Text.lowerCase (Text.strip text).toList))

def workersSetting (default : Int) : Option String → Except SettingsFault Int
  | none => .ok default
  | some text => (Number.readInteger 10 text).mapError .workers

namespace Settings

def default (surroundings : Surroundings) : Settings where
  pathIn := some "./definitions"
  pathOut := some "."
  outputFile := some "struct.sql"
  recursive := some true
  maxWorkers := some surroundings.defaultWorkers
  destructive := some false
  header := some ⟨defaultHeader, true⟩

def ofSurroundings (surroundings : Surroundings) : Except SettingsFault Settings := do
  let text (name default : String) := (surroundings.value? name).getD default
  let workers ←
    workersSetting surroundings.defaultWorkers (surroundings.value? "PGSPELL_MAX_WORKERS")
  return {
    pathIn := text "PGSPELL_PATH_IN" "./definitions"
    pathOut := text "PGSPELL_PATH_OUT" "."
    outputFile := text "PGSPELL_OUTPUT_FILE" "struct.sql"
    recursive := truthSetting true (surroundings.value? "PGSPELL_RECURSIVE")
    maxWorkers := workers
    destructive := truthSetting false (surroundings.value? "PGSPELL_DESTRUCTIVE")
    header := some ⟨text "PGSPELL_HEADER" defaultHeader, true⟩ }

def override (settings changes : Settings) : Settings where
  pathIn := changes.pathIn <|> settings.pathIn
  pathOut := changes.pathOut <|> settings.pathOut
  outputFile := changes.outputFile <|> settings.outputFile
  recursive := changes.recursive <|> settings.recursive
  maxWorkers := changes.maxWorkers <|> settings.maxWorkers
  destructive := changes.destructive <|> settings.destructive
  header := changes.header <|> settings.header

def unset : Settings := ⟨none, none, none, none, none, none, none⟩

def headerText (settings : Settings) : Option String := settings.header.map (·.text)

def outputPath (settings : Settings) : Except SettingsFault String :=
  match settings.pathOut, settings.outputFile with
  | none, _ => .error .noDirectory
  | some _, none => .error .noFile
  | some directory, some file => .ok (Path.join directory file)

end Settings

inductive Setting
  | pathIn (value : Option String)
  | pathOut (value : Option String)
  | outputFile (value : Option String)
  | recursive (value : Option Bool)
  | maxWorkers (value : Option Int)
  | destructive (value : Option Bool)
  | header (value : Option MendedText)
  | unknown (name : String) (isGiven : Bool)
deriving DecidableEq, Repr

namespace Setting

def isGiven : Setting → Bool
  | .pathIn value => value.isSome
  | .pathOut value => value.isSome
  | .outputFile value => value.isSome
  | .recursive value => value.isSome
  | .maxWorkers value => value.isSome
  | .destructive value => value.isSome
  | .header value => value.isSome
  | .unknown _ isGiven => isGiven

def apply (settings : Settings) : Setting → Except SettingsFault Settings
  | .pathIn value => .ok { settings with pathIn := value }
  | .pathOut value => .ok { settings with pathOut := value }
  | .outputFile value => .ok { settings with outputFile := value }
  | .recursive value => .ok { settings with recursive := value }
  | .maxWorkers value => .ok { settings with maxWorkers := value }
  | .destructive value => .ok { settings with destructive := value }
  | .header value => .ok { settings with header := value }
  | .unknown name _ => .error (.unknownField name)

end Setting

namespace Settings

/-- Sets fields one by one, also to no value. -/
def setAll (settings : Settings) (fields : List Setting) : Except SettingsFault Settings :=
  fields.foldlM Setting.apply settings

def overrideAll (settings : Settings) (fields : List Setting) : Except SettingsFault Settings :=
  settings.override <$> unset.setAll (fields.filter (·.isGiven))

end Settings

structure SettingsCache where
  kept : Option Settings
  readings : Nat
deriving DecidableEq, Repr

namespace SettingsCache

def empty : SettingsCache := ⟨none, 0⟩

def drop (cache : SettingsCache) : SettingsCache := { cache with kept := none }

/-- The settings that are kept, or else those of the surroundings, which are kept from then on. -/
def get (cache : SettingsCache) (surroundings : Surroundings) :
    Except SettingsFault (Settings × SettingsCache) :=
  match cache.kept with
  | some settings => .ok (settings, cache)
  | none => do
    let settings ← Settings.ofSurroundings surroundings
    return (settings, ⟨some settings, cache.readings + 1⟩)

end SettingsCache

end SchemaScript
