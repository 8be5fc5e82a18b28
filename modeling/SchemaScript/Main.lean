import SchemaScript.CommandLine
import Std.Time.DateTime.Timestamp

/-!
The program. It looks at the part of the file system that a call can reach, answers the call, and
carries out the changes to files.
-/

namespace SchemaScript.Main

open CommandLine

def variableNames : List String :=
  ["PGSPELL_PATH_IN", "PGSPELL_PATH_OUT", "PGSPELL_OUTPUT_FILE", "PGSPELL_RECURSIVE",
    "PGSPELL_MAX_WORKERS", "PGSPELL_DESTRUCTIVE", "PGSPELL_HEADER", "LOG_LEVEL", "LOG_FORMAT"]

/-- The environment. Documents are read one by one, so processors are not counted. -/
def surroundings : IO Surroundings := do
  let mut found := []
  for name in variableNames do
    if let some value ← IO.getEnv name then
      found := (name, value) :: found
  return ⟨found, none⟩

def currentTime : IO Moment := do
  let now ← Std.Time.Timestamp.now
  return Moment.ofEpoch now.val.second.val (now.val.nano.val.toNat / 1000)

def pathOf (location : Location) : String := "/" ++ "/".intercalate location

partial def withContents (tree : FileTree) (location : Location) : IO FileTree := do
  let directory := (← IO.currentDir) / pathOf location
  let mut tree := tree
  for item in ← directory.readDir do
    let place := location ++ [item.fileName]
    if ← item.path.isDir then
      tree ← withContents (tree.put place .directory) place
    else if isDocumentName item.fileName then
      tree := tree.put place (.file (← IO.FS.readBinFile item.path))
  return tree

def withNames (tree : FileTree) (location : Location) : List String → IO FileTree
  | [] => return tree
  | name :: names => do
    if Path.isCurrent name then withNames tree location names
    else if name == ".." then withNames tree location.dropLast names
    else
      let place := location ++ [name]
      let path := (← IO.currentDir) / pathOf place
      if ← path.isDir then withNames (tree.put place .directory) place names
      else if ← path.pathExists then return tree.put place (.file (← IO.FS.readBinFile path))
      else return tree

def withPath (tree : FileTree) (workplace : Location) (path : String) : IO FileTree :=
  withNames tree (FileTree.origin workplace path) (Path.names path)

/-- The part of the file system that a call can reach. -/
def reachable (surroundings : Surroundings) (workplace : Location) (words : List String) :
    IO FileTree := do
  let tree ← withPath .empty [] (pathOf workplace)
  let .ok (.run arguments) := request words | return tree
  let .ok settled := settle surroundings .empty arguments | return tree
  let directory := Path.display (settled.settings.pathIn.getD "")
  let tree ← withPath (← withPath tree workplace settled.path) workplace directory
  match tree.locate workplace directory with
  | .ok location => if tree.isDirectory location then withContents tree location else return tree
  | .error _ => return tree

def isNew (before : FileTree) (location : Location) (entry : FileEntry) : Bool :=
  match before.get? location, entry with
  | some .directory, .directory => false
  | some (.file old), .file new => old != new
  | _, _ => true

def carryOut (before after : FileTree) : IO Unit := do
  for (location, entry) in after.entries do
    if isNew before location entry then
      match entry with
      | .directory => IO.FS.createDirAll (pathOf location)
      | .file content => IO.FS.writeBinFile (pathOf location) content

def status : Ending → IO UInt32
  | .finished code => return code.toUInt32
  | .left code => return code.toUInt32
  | .stopped stop => do
    IO.eprintln stop.message
    return 1

end SchemaScript.Main

open SchemaScript in
def main (words : List String) : IO UInt32 := do
  let surroundings ← Main.surroundings
  let workplace := (Path.names (← IO.currentDir).toString).filter (!·.isEmpty)
  let tree ← Main.reachable surroundings workplace words
  let time ← Main.currentTime
  let call := CommandLine.call ⟨surroundings, .empty, tree, workplace, time⟩ words
  Main.carryOut tree call.tree
  IO.print call.output
  IO.eprint call.errorOutput
  Main.status call.ending
