import SchemaScript.Generation

/-!
Sessions: a catalog and a file tree that operations change one after the other. Every operation
gives the session that it leaves behind, also where it fails. A run starts from an empty catalog
whatever comes of it.
-/

namespace SchemaScript

structure Session where
  catalog : Catalog
  tree : FileTree
  workplace : Location
  workers : Option Int

inductive LoadFailure
  | noDirectoryGiven
  | discovery (fault : DiscoveryFault)
  | stopped (stop : LoadStop)
deriving DecidableEq, Repr

def LoadFailure.message : LoadFailure → String
  | .noDirectoryGiven => "source_dir is required"
  | .discovery fault => fault.message
  | .stopped stop => stop.message

namespace Session

def merge (session : Session) (collections : List Collection) :
    Session × Except (List Duplicate) Unit :=
  match session.catalog.merge collections with
  | .error duplicates => (session, .error duplicates)
  | .ok catalog => ({ session with catalog }, .ok ())

def clear (session : Session) : Session := { session with catalog := session.catalog.clear }

def loading (session : Session) (directory : String) (options : LoadOptions) :
    Except LoadFailure Loading := do
  let loading ←
    (load session.tree session.workplace directory options).mapError .discovery
  match loading.stop? with
  | some stop => throw (.stopped stop)
  | none => return loading

/-- Adds the definitions of a directory, and tells whether that was done. A document at fault or a
name defined twice prevents it. -/
def loadDefinitions (session : Session) (directory : String) (recursive : Bool) :
    Session × Except LoadFailure Bool :=
  if directory.isEmpty then (session, .error .noDirectoryGiven)
  else
    match session.loading directory ⟨recursive, false, session.workers⟩ with
    | .error failure => (session, .error failure)
    | .ok loading =>
      if loading.isSuccess then
        let (merged, outcome) := session.merge loading.collections
        match outcome with
        | .error _ => (merged, .ok false)
        | .ok () => (merged, .ok true)
      else (session, .ok false)

/-- Generates a script. The catalog afterwards is that of the run. -/
def generate (session : Session) (settings : Settings) (filter : NameFilter) (dryRun : Bool) :
    Session × Except Halt Report :=
  let run := SchemaScript.generate settings filter dryRun session.tree session.workplace
  ({ session with catalog := run.catalog, tree := run.tree }, run.outcome)

end Session

end SchemaScript
