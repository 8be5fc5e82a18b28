import SchemaScript.Text.Quoted

/-!
Trees of files and directories, and paths in them. A location lists the names from the root down.
A path begins at the root if it begins with a slash, and otherwise at the directory in which the
program works. Looking it up follows its names one by one, and every name on the way has to be that
of a directory.
-/

namespace SchemaScript.Path

def isAbsolute (path : String) : Bool := path.toList.head? == some '/'

def names (path : String) : List String := (path.toList.splitOn '/').map String.ofList

def isCurrent (name : String) : Bool := name.isEmpty || name == "."

def join (base path : String) : String :=
  if isAbsolute path then path
  else if base.isEmpty || base.toList.getLast? == some '/' then base ++ path
  else base ++ "/" ++ path

def withoutFinalSlashes (cs : List Char) : List Char :=
  if cs.all (· == '/') then cs else (cs.reverse.dropWhile (· == '/')).reverse

/-- The part up to the last slash and the last name, which is empty after a final slash. -/
def split (path : String) : String × String :=
  let cs := path.toList.reverse
  let tail := (cs.takeWhile (· != '/')).reverse
  let head := (cs.dropWhile (· != '/')).reverse
  (String.ofList (withoutFinalSlashes head), String.ofList tail)

def parent (path : String) : String := (split path).1

def root (path : String) : String :=
  match path.toList with
  | '/' :: '/' :: '/' :: _ => "/"
  | '/' :: '/' :: _ => "//"
  | '/' :: _ => "/"
  | _ => ""

/-- A path as messages show it, without needless slashes and dots. -/
def display (path : String) : String :=
  let shown := root path ++ "/".intercalate ((names path).filter (!isCurrent ·))
  if shown.isEmpty then "." else shown

def below (base : String) (names : List String) : String :=
  display (join base ("/".intercalate names))

end SchemaScript.Path

namespace SchemaScript

abbrev Location := List String

inductive FileEntry
  | file (content : ByteArray)
  | directory

structure FileTree where
  entries : List (Location × FileEntry)
  nodup : (entries.map (·.1)).Nodup

inductive PathTrouble
  | missing
  | exists
  | notDirectory
  | isDirectory
  | nameTooLong
deriving DecidableEq, Repr

def PathTrouble.number : PathTrouble → Nat
  | .missing => 2
  | .exists => 17
  | .notDirectory => 20
  | .isDirectory => 21
  | .nameTooLong => 36

def PathTrouble.text : PathTrouble → String
  | .missing => "No such file or directory"
  | .exists => "File exists"
  | .notDirectory => "Not a directory"
  | .isDirectory => "Is a directory"
  | .nameTooLong => "File name too long"

inductive PathFault
  | refused (trouble : PathTrouble) (path : String)
  /-- A null character, which no path can hold. A lone surrogate that stands for no byte is refused
  alike and counts as one. -/
  | nullCharacter
deriving DecidableEq, Repr

def PathFault.message : PathFault → String
  | .refused trouble path =>
    "[Errno " ++ toString trouble.number ++ "] " ++ trouble.text ++ ": " ++ Text.quoted path
  | .nullCharacter => "embedded null byte"

namespace FileTree

def empty : FileTree := ⟨[], List.nodup_nil⟩

def get? (tree : FileTree) (location : Location) : Option FileEntry :=
  if location.isEmpty then some .directory
  else (tree.entries.find? fun entry => entry.1 == location).map (·.2)

def isDirectory (tree : FileTree) (location : Location) : Bool :=
  match tree.get? location with
  | some .directory => true
  | _ => false

def put (tree : FileTree) (location : Location) (entry : FileEntry) : FileTree where
  entries := tree.entries.filter (·.1 != location) ++ [(location, entry)]
  nodup := by
    rw [List.map_append, List.nodup_append]
    refine ⟨(List.filter_sublist.map _).nodup tree.nodup, by simp, ?_⟩
    rintro a ha b hb rfl
    simp only [List.map_cons, List.map_nil, List.mem_singleton] at hb
    subst hb
    simp at ha

def erase (tree : FileTree) (location : Location) : FileTree where
  entries := tree.entries.filter fun entry => !location.isPrefixOf entry.1
  nodup := (List.filter_sublist.map _).nodup tree.nodup

theorem get?_put_of_ne {tree : FileTree} {location other : Location} {entry : FileEntry}
    (h : other ≠ location) : (tree.put location entry).get? other = tree.get? other := by
  unfold get? put
  split
  · rfl
  · congr 1
    rw [List.find?_append, List.find?_filter]
    have only : (List.find? (fun e => e.1 == other) [(location, entry)]) = none := by
      simp [Ne.symm h]
    rw [only, Option.or_none]
    congr 1
    funext e
    by_cases same : e.1 = other <;> simp_all

theorem get?_put {tree : FileTree} {location : Location} {entry : FileEntry}
    (h : location ≠ []) : (tree.put location entry).get? location = some entry := by
  have absent : List.find? (fun e => e.1 == location)
      (tree.entries.filter (·.1 != location)) = none := by
    simp [List.find?_eq_none]
  unfold get? put
  simp [h, List.find?_append, absent]

def greatestName : Nat := 255

def greatestPath : Nat := 4095

def isTooLong (path : String) : Bool :=
  greatestPath < path.utf8ByteSize || (Path.names path).any (greatestName < ·.utf8ByteSize)

def follow (tree : FileTree) (location : Location) : List String → Except PathTrouble Location
  | [] => .ok location
  | name :: names =>
    if !tree.isDirectory location then .error .notDirectory
    else if Path.isCurrent name then tree.follow location names
    else if name == ".." then tree.follow location.dropLast names
    else if greatestName < name.utf8ByteSize then .error .nameTooLong
    else if (tree.get? (location ++ [name])).isSome then tree.follow (location ++ [name]) names
    else .error .missing

def origin (workplace : Location) (path : String) : Location :=
  if Path.isAbsolute path then [] else workplace

def checkPath (path : String) : Except PathFault Unit :=
  if path.toList.contains '\x00' then .error .nullCharacter
  else if path.isEmpty then .error (.refused .missing path)
  else if greatestPath < path.utf8ByteSize then .error (.refused .nameTooLong path)
  else .ok ()

def locate (tree : FileTree) (workplace : Location) (path : String) :
    Except PathFault Location := do
  checkPath path
  (tree.follow (origin workplace path) (Path.names path)).mapError (.refused · path)

inductive Last
  | name (directory : Location) (name : String)
  | directory

/-- Follows a path up to its last name, which need not be there. -/
def approach (tree : FileTree) (workplace : Location) (path : String) :
    Except PathFault Last := do
  checkPath path
  let names := (Path.names path).filter (!·.isEmpty)
  match names.getLast? with
  | none => return .directory
  | some last =>
    let directory ←
      (tree.follow (origin workplace path) (names.dropLast ++ ["."])).mapError (.refused · path)
    if last == "." || last == ".." then return .directory
    return .name directory last

def makeDirectory (tree : FileTree) (workplace : Location) (path : String) :
    Except PathFault FileTree := do
  match ← tree.approach workplace path with
  | .directory => throw (.refused .exists path)
  | .name directory name =>
    if greatestName < name.utf8ByteSize then throw (.refused .nameTooLong path)
    if (tree.get? (directory ++ [name])).isSome then throw (.refused .exists path)
    return tree.put (directory ++ [name]) .directory

def reaches (tree : FileTree) (workplace : Location) (path : String) : Bool :=
  match tree.locate workplace path with
  | .ok _ => true
  | .error _ => false

def reachesDirectory (tree : FileTree) (workplace : Location) (path : String) : Bool :=
  match tree.locate workplace path with
  | .ok location => tree.isDirectory location
  | .error _ => false

structure Change where
  tree : FileTree
  fault? : Option PathFault

def ensureDirectory (tree : FileTree) (workplace : Location) (path : String) : Change :=
  match tree.makeDirectory workplace path with
  | .ok tree => ⟨tree, none⟩
  | .error fault => ⟨tree, if tree.reachesDirectory workplace path then none else some fault⟩

def PathFault.isExists : PathFault → Bool
  | .refused .exists _ => true
  | _ => false

/-- The directories above a path and its last name, whatever slashes it ends in. -/
def splitDirectory (path : String) : String × String :=
  let (head, tail) := Path.split path
  if tail.isEmpty then Path.split head else (head, tail)

/-- Makes a directory and those above it, as far as they are missing. What is made stays, also
when a later step fails. -/
def ensureDirectoriesFrom (workplace : Location) :
    (fuel : Nat) → (tree : FileTree) → (path : String) → Change
  | 0, tree, path => tree.ensureDirectory workplace path
  | fuel + 1, tree, path =>
    let (head, tail) := splitDirectory path
    if head.isEmpty || tail.isEmpty || tree.reaches workplace head then
      tree.ensureDirectory workplace path
    else
      let above := ensureDirectoriesFrom workplace fuel tree head
      if above.fault?.any (!PathFault.isExists ·) then above
      else if tail == "." then ⟨above.tree, none⟩
      else above.tree.ensureDirectory workplace path

def ensureDirectories (tree : FileTree) (workplace : Location) (path : String) : Change :=
  ensureDirectoriesFrom workplace path.length tree path

def writeFile (tree : FileTree) (workplace : Location) (path : String) (content : ByteArray) :
    Except PathFault FileTree := do
  match ← tree.approach workplace path with
  | .directory => throw (.refused .isDirectory path)
  | .name directory name =>
    if path.toList.getLast? == some '/' then throw (.refused .isDirectory path)
    if greatestName < name.utf8ByteSize then throw (.refused .nameTooLong path)
    if tree.isDirectory (directory ++ [name]) then throw (.refused .isDirectory path)
    return tree.put (directory ++ [name]) (.file content)

def writeBelow (tree : FileTree) (workplace : Location) (path : String) (content : ByteArray) :
    Change :=
  let directory := Path.parent path
  let above :=
    if directory.isEmpty then ⟨tree, none⟩ else tree.ensureDirectories workplace directory
  if above.fault?.isSome then above
  else
    match above.tree.writeFile workplace path content with
    | .ok tree => ⟨tree, none⟩
    | .error fault => ⟨above.tree, some fault⟩

def below? (location other : Location) : Option Location :=
  if location.isPrefixOf other && location != other then some (other.drop location.length) else none

def filesBelow (tree : FileTree) (location : Location) : List (Location × ByteArray) :=
  tree.entries.filterMap fun entry =>
    match entry.2, below? location entry.1 with
    | .file content, some path => some (path, content)
    | _, _ => none

end FileTree

end SchemaScript
