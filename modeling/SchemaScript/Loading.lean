import SchemaScript.Catalog
import SchemaScript.Definition.Check
import SchemaScript.FileTree.Search
import SchemaScript.Text.Character
import SchemaScript.Yaml.Document

/-!
Loading the definition documents of a directory. Documents are read one after the other in the
order of their paths. A document that cannot be loaded is noted and the next one is read, unless
the first failure is to stop all; few faults are not noted but end everything.
-/

namespace SchemaScript

inductive DocumentFault
  | encoding (fault : Text.Utf8.Fault)
  | form (fault : Yaml.Fault)
  | notMapping (type : String)
  | invalid (faults : List Fault)
deriving DecidableEq, Repr

namespace DocumentFault

def message : DocumentFault → String
  | .encoding fault => fault.message
  | .form fault => fault.message
  | .notMapping type => "Top-level document must be a mapping, got " ++ type
  | .invalid faults => toString faults.length ++ " validation error(s)"

def details : DocumentFault → List Fault
  | .invalid faults => faults
  | _ => []

/-- Whether a fault is noted. Any other fault ends the loading of all documents. -/
def isNoted : DocumentFault → Bool
  | .form fault => fault.isOrdinary
  | _ => true

end DocumentFault

/-- The definitions in a document, unless the document is without content. -/
def readDocument (content : ByteArray) : Except DocumentFault (Option Collection) := do
  let chars ← (Text.Utf8.decode content).mapError .encoding
  match ← (Yaml.read (Text.unifyNewlines chars)).mapError .form with
  | .null => return none
  | .mapping entries =>
    match checkCollection (.mapping entries) with
    | .valid collection => return some collection
    | .faulty faults => throw (.invalid faults)
  | value => throw (.notMapping value.typeName)

@[ext]
structure SourceFile where
  path : Location
  content : ByteArray

instance : DecidableEq SourceFile := fun a b =>
  decidable_of_iff (a.path = b.path ∧ a.content.data = b.content.data) <| by
    rw [SourceFile.ext_iff, ByteArray.ext_iff]

def SourceFile.name (file : SourceFile) : String := "/".intercalate file.path

def documentPatterns : List String := ["*.yaml", "*.yml"]

def isDocumentName (name : String) : Bool := documentPatterns.any (Text.globMatches · name)

def nameBefore : List Char → List Char → Bool
  | [], [] => false
  | [], _ => true
  | _, [] => false
  | a :: as, b :: bs => if a = b then nameBefore as bs else a.toNat < b.toNat

def pathBefore : Location → Location → Bool
  | [], [] => false
  | [], _ => true
  | _, [] => false
  | a :: as, b :: bs => if a = b then pathBefore as bs else nameBefore a.toList b.toList

def sourceFile? (tree : FileTree) (directory path : Location) : Option SourceFile :=
  match tree.get? (directory ++ path) with
  | some (.file content) => some ⟨path, content⟩
  | _ => none

/-- The documents that are found at any depth below a location, or only directly in it. There is
a search for each pattern, and what several of them find counts once. -/
def searchDocuments (tree : FileTree) (location : Location) (recursive : Bool) :
    List SourceFile :=
  distinctBy SourceFile.path (documentPatterns.flatMap fun pattern =>
    (tree.glob location pattern recursive).filterMap (sourceFile? tree location))

def documentsBelow (tree : FileTree) (location : Location) (recursive : Bool) :
    List SourceFile :=
  (searchDocuments tree location recursive).mergeSort fun a b => !pathBefore b.path a.path

/-- The first path that cannot be looked up for being too long. -/
def overlong? (tree : FileTree) (path : String) (location : Location) (recursive : Bool) :
    Option String :=
  let looked := documentPatterns.flatMap fun pattern => tree.lookedUp location pattern recursive
  (looked.map (Path.below path)).find? FileTree.isTooLong

inductive DiscoveryFault
  | notDirectory (path : String)
  | refused (fault : PathFault)
deriving DecidableEq, Repr

def DiscoveryFault.message : DiscoveryFault → String
  | .notDirectory path => "Not a directory: " ++ path
  | .refused fault => fault.message

def discover (tree : FileTree) (workplace : Location) (directory : String) (recursive : Bool) :
    Except DiscoveryFault (List SourceFile) :=
  let path := Path.display directory
  match tree.locate workplace path with
  | .ok location =>
    if tree.isDirectory location then
      match overlong? tree path location recursive with
      | some long => .error (.refused (.refused .nameTooLong long))
      | none => .ok (documentsBelow tree location recursive)
    else .error (.notDirectory path)
  | .error (.refused .nameTooLong path) => .error (.refused (.refused .nameTooLong path))
  | .error _ => .error (.notDirectory path)

structure Attempt where
  name : String
  result : Except DocumentFault (Option Collection)

def SourceFile.attempt (file : SourceFile) : Attempt := ⟨file.name, readDocument file.content⟩

def Attempt.isLast (failFast : Bool) (attempt : Attempt) : Bool :=
  match attempt.result with
  | .ok _ => false
  | .error fault => failFast || !fault.isNoted

def attempts (failFast : Bool) : List SourceFile → List Attempt
  | [] => []
  | file :: files =>
    if file.attempt.isLast failFast then [file.attempt]
    else file.attempt :: attempts failFast files

structure FileError where
  name : String
  fault : DocumentFault
deriving DecidableEq, Repr

def FileError.text (error : FileError) : String := error.name ++ ": " ++ error.fault.message

inductive LoadStop
  | noWorkers
  | document (fault : DocumentFault)
deriving DecidableEq, Repr

def LoadStop.message : LoadStop → String
  | .noWorkers => "max_workers must be greater than 0"
  | .document fault => fault.message

structure Loading where
  directory : String
  files : List String
  attempts : List Attempt
  workersFault : Bool

namespace Loading

def collections (loading : Loading) : List Collection :=
  loading.attempts.filterMap fun attempt =>
    match attempt.result with
    | .ok collection? => some (collection?.getD .empty)
    | .error _ => none

def errors (loading : Loading) : List FileError :=
  loading.attempts.filterMap fun attempt =>
    match attempt.result with
    | .ok _ => none
    | .error fault => some ⟨attempt.name, fault⟩

def cancelled (loading : Loading) : Nat := loading.files.length - loading.attempts.length

def stop? (loading : Loading) : Option LoadStop :=
  if loading.workersFault then some .noWorkers
  else (loading.errors.find? fun error => !error.fault.isNoted).map (.document ·.fault)

def isSuccess (loading : Loading) : Bool := loading.errors.isEmpty && loading.cancelled == 0

end Loading

/-- How documents are read: no number of workers means the default, a negative one is refused as
soon as there is work. -/
structure LoadOptions where
  recursive : Bool
  failFast : Bool
  workers : Option Int
deriving DecidableEq, Repr

def load (tree : FileTree) (workplace : Location) (directory : String) (options : LoadOptions) :
    Except DiscoveryFault Loading := do
  let files ← discover tree workplace directory options.recursive
  let refused := !files.isEmpty && options.workers.any (· < 0)
  return {
    directory := Path.display directory
    files := files.map (·.name)
    attempts := if refused then [] else attempts options.failFast files
    workersFault := refused }

end SchemaScript
