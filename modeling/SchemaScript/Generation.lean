import SchemaScript.Emission
import SchemaScript.Loading
import SchemaScript.Settings

/-!
Generating a script. A run loads a directory into an empty catalog, puts the objects in order,
renders them, and writes the script unless it is only to be shown. What can go wrong with the
documents or the file is part of the report; the rest ends the run without one.
-/

namespace SchemaScript

inductive Failure
  | notDirectory (path : String)
  | documents (errors : List FileError)
  | duplicates (duplicates : List Duplicate)
  | cycle (cycle : Cycle)
  | unwritten (path : String) (fault : PathFault)
deriving DecidableEq, Repr

def Duplicate.line (duplicate : Duplicate) : String :=
  "Duplicate " ++ duplicate.category.text ++ " definition: " ++ duplicate.name.text

def Failure.errors : Failure → List String
  | .notDirectory path => [(DiscoveryFault.notDirectory path).message]
  | .documents faulty => faulty.map (·.text)
  | .duplicates repeated => repeated.map (·.line)
  | .cycle found => [found.message]
  | .unwritten path fault => ["Cannot write " ++ path ++ ": " ++ fault.message]

/-- What ends a run without a report. -/
inductive Halt
  | settings (fault : SettingsFault)
  | path (fault : PathFault)
  | load (stop : LoadStop)
  | notUnicode
deriving DecidableEq, Repr

def Halt.message : Halt → String
  | .settings fault => fault.message
  | .path fault => fault.message
  | .load stop => stop.message
  | .notUnicode => "surrogates not allowed"

inductive Obstacle
  | failure (failure : Failure)
  | halt (halt : Halt)
deriving DecidableEq, Repr

namespace Obstacle

def ofDiscovery : DiscoveryFault → Obstacle
  | .notDirectory path => .failure (.notDirectory path)
  | .refused fault => .halt (.path fault)

end Obstacle

namespace Settings

def loadOptions (settings : Settings) : LoadOptions :=
  ⟨settings.recursive.getD false, false, settings.maxWorkers⟩

def loading (settings : Settings) (tree : FileTree) (workplace : Location) :
    Except Obstacle Loading :=
  match settings.pathIn with
  | none => .error (.halt (.settings .noDirectory))
  | some directory =>
    (load tree workplace directory settings.loadOptions).mapError Obstacle.ofDiscovery

end Settings

def Loading.definitions (loading : Loading) : Except Obstacle (List Collection) :=
  match loading.stop? with
  | some stop => .error (.halt (.load stop))
  | none =>
    if loading.isSuccess then .ok loading.collections
    else .error (.failure (.documents loading.errors))

def mergeAll (collections : List Collection) : Except Obstacle Catalog :=
  (Catalog.empty.merge collections).mapError fun duplicates => .failure (.duplicates duplicates)

def Settings.definitions (settings : Settings) (tree : FileTree) (workplace : Location) :
    Except Obstacle (List Collection) := do
  let loading ← settings.loading tree workplace
  loading.definitions

/-- The catalog that settings lead to. Nothing that was defined before is in it. -/
def Settings.catalog (settings : Settings) (tree : FileTree) (workplace : Location) :
    Except Obstacle Catalog := do
  mergeAll (← settings.definitions tree workplace)

structure Report where
  success : Bool
  objectCount : Nat
  outputPath : Option String
  sql : String
  isUnicode : Bool
  sections : List (String × Nat)
  errors : List String
deriving DecidableEq, Repr

namespace Report

def failed (failure : Failure) : Report := ⟨false, 0, none, "", true, [], failure.errors⟩

def rendered (emission : Emission) (settings : Settings) : Report where
  success := true
  objectCount := emission.size
  outputPath := none
  sql := emission.script settings.headerText (settings.destructive.getD false)
  isUnicode := emission.isUnicode && settings.header.all (·.isUnicode)
  sections := emission.counts
  errors := []

/-- What gets into the file of a script, which is emptied before the script is encoded. -/
def content (report : Report) : ByteArray :=
  if report.isUnicode then report.sql.toUTF8 else .empty

def written (report : Report) (path : String) : Report := { report with outputPath := some path }

def unwritten (report : Report) (failure : Failure) : Report :=
  { report with success := false, errors := failure.errors }

end Report

structure Run where
  catalog : Catalog
  tree : FileTree
  outcome : Except Halt Report

def deliver (settings : Settings) (tree : FileTree) (workplace : Location) (catalog : Catalog)
    (report : Report) : Run :=
  match settings.outputPath with
  | .error fault => ⟨catalog, tree, .error (.settings fault)⟩
  | .ok path =>
    let change := tree.writeBelow workplace path report.content
    match change.fault? with
    | none =>
      ⟨catalog, change.tree,
        if report.isUnicode then .ok (report.written path) else .error .notUnicode⟩
    | some .nullCharacter => ⟨catalog, change.tree, .error (.path .nullCharacter)⟩
    | some fault => ⟨catalog, change.tree, .ok (report.unwritten (.unwritten path fault))⟩

/-- A dry run shows the script in its report and leaves the files alone. -/
def generate (settings : Settings) (filter : NameFilter) (dryRun : Bool) (tree : FileTree)
    (workplace : Location) : Run :=
  match settings.catalog tree workplace with
  | .error (.halt halt) => ⟨.empty, tree, .error halt⟩
  | .error (.failure failure) => ⟨.empty, tree, .ok (.failed failure)⟩
  | .ok catalog =>
    match Emission.ofCatalog catalog filter with
    | .error cycle => ⟨catalog, tree, .ok (.failed (.cycle cycle))⟩
    | .ok emission =>
      let report := Report.rendered emission settings
      if dryRun then ⟨catalog, tree, .ok report⟩
      else deliver settings tree workplace catalog report

end SchemaScript
