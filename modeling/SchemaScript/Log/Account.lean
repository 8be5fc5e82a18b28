import SchemaScript.Generation
import SchemaScript.Log.Record

/-!
What a run has to say about itself: the notices of its steps, in the order in which the steps are
taken. A step that ends the run is the last to be heard of.
-/

namespace SchemaScript.Log

def loaderSource : Source := ⟨"services.definition_loader", .loader⟩

def registrySource : Source := ⟨"services.definition_registry", .registry⟩

def walkerSource : Source := ⟨"services.dependency_walker", .walker⟩

def generationSource : Source := ⟨"services.generation_service", .service⟩

def Source.notice (source : Source) (level : Level) (message : String) : Notice :=
  ⟨source, level, message, []⟩

def namingBlock (aspects : List (Aspect × String)) : Block :=
  ⟨aspects.map fun (aspect, text) => (aspect, .text text), []⟩

def countsText (collection : Collection) : String :=
  toString collection.enums.length ++ " enums, " ++ toString collection.composites.length ++
    " composites, " ++ toString collection.tables.length ++ " tables"

def detailText (fault : Fault) : String :=
  "  " ++ fault.location ++ ": " ++ fault.reason.message

def attemptNotices (attempt : Attempt) : List Notice :=
  let block := namingBlock [(.sourceFile, attempt.name), (.operation, "load")]
  let start := (loaderSource.notice .info ("Processing " ++ attempt.name)).inside block
  match attempt.result with
  | .ok none => [start]
  | .ok (some collection) =>
    [start,
      (loaderSource.notice .debug (attempt.name ++ ": " ++ countsText collection)).inside block]
  | .error fault =>
    if fault.isNoted then
      [start, loaderSource.notice .error (FileError.text ⟨attempt.name, fault⟩)] ++
        fault.details.map fun detail => loaderSource.notice .error (detailText detail)
    else [start]

def resultNotices (loading : Loading) : List Notice :=
  let cancelled :=
    if loading.cancelled = 0 then []
    else
      [loaderSource.notice .warning
        ("Cancelled " ++ toString loading.cancelled ++ " file(s) after first failure")]
  let result :=
    if loading.errors.isEmpty then loaderSource.notice .info "All files have been processed"
    else
      loaderSource.notice .error
        ("There are processing errors in " ++ toString loading.errors.length ++ " file(s)")
  cancelled ++ [result]

def loadingNotices (loading : Loading) : List Notice :=
  if loading.files.isEmpty then
    [loaderSource.notice .info ("No YAML definition files found in " ++ loading.directory)]
  else
    [loaderSource.notice .info
      ("Found " ++ toString loading.files.length ++ " YAML definition file(s) in " ++
        loading.directory)] ++
      loading.attempts.flatMap attemptNotices ++
      if loading.stop?.isSome then [] else resultNotices loading

def mergedNotice (catalog : Catalog) : Notice :=
  registrySource.notice .info
    ("Registry holds " ++ toString catalog.enums.size ++ " enums, " ++
      toString catalog.composites.size ++ " composites, " ++ toString catalog.tables.size ++
      " tables in " ++ toString catalog.schemas.length ++ " schemas")

def renderedNotice (object : SqlObject) : Notice :=
  (generationSource.notice .debug "Rendered object").inside
    (namingBlock [(.objectName, object.name), (.objectKind, object.kind.text)])

def unresolvedNotice (object : SqlObject) (column : Column) (reference : String) : Notice :=
  walkerSource.notice .debug
    (object.name ++ "." ++ column.name.text ++ ": reference '" ++ reference ++
      "' not registered, rendering as literal type")

def walkNotices (catalog : Catalog) (roots : List SqlObject) : List Notice :=
  (catalog.walkAll roots).flatMap fun walk => walk.visited.flatMap fun object =>
    (catalog.unresolved object).map fun (column, reference) =>
      unresolvedNotice object column reference

def expandedNotices (catalog : Catalog) (seen : List ObjectKey) :
    (roots : List (List SqlObject)) → List Notice
  | [] => []
  | roots :: rest =>
    walkNotices catalog roots ++
      match catalog.expand roots with
      | .error _ => []
      | .ok objects =>
        let fresh := objects.filter fun object => !seen.contains object.key
        fresh.map renderedNotice ++
          expandedNotices catalog (seen ++ fresh.map (·.key)) rest

def emissionNotices (catalog : Catalog) (filter : NameFilter) : List Notice :=
  let first := catalog.schemaObjects acceptAll ++ catalog.enumObjects filter
  first.map renderedNotice ++
    expandedNotices catalog (first.map (·.key))
      [catalog.compositeRoots filter, catalog.tableRoots filter]

/-- Failures that the loading of documents has not told already. -/
def failureNotices : Failure → List Notice
  | .documents _ => []
  | failure => failure.errors.map (generationSource.notice .error ·)

def catalogNotices (settings : Settings) (tree : FileTree) (workplace : Location) :
    List Notice :=
  match settings.loading tree workplace with
  | .error (.failure failure) => failureNotices failure
  | .error (.halt _) => []
  | .ok loading =>
    loadingNotices loading ++
      match loading.definitions >>= mergeAll with
      | .error (.failure failure) => failureNotices failure
      | .error (.halt _) => []
      | .ok catalog => [mergedNotice catalog]

def scriptNotices (catalog : Catalog) (filter : NameFilter) : List Notice :=
  emissionNotices catalog filter ++
    match Emission.ofCatalog catalog filter with
    | .error cycle => failureNotices (.cycle cycle)
    | .ok _ => []

def endNotices (dryRun : Bool) (report : Report) : List Notice :=
  let count := toString report.objectCount ++ " objects"
  if dryRun then [generationSource.notice .info ("[DRY RUN] Rendered " ++ count)]
  else
    match report.outputPath with
    | some path => [generationSource.notice .info ("Wrote " ++ count ++ " to " ++ path)]
    | none => report.errors.map (generationSource.notice .error ·)

def runNotices (settings : Settings) (filter : NameFilter) (dryRun : Bool) (tree : FileTree)
    (workplace : Location) : List Notice :=
  let start := generationSource.notice .info
    ("Generating DDL from " ++ settings.pathIn.getD Value.null.plain)
  let body :=
    match settings.catalog tree workplace with
    | .error _ => []
    | .ok catalog =>
      scriptNotices catalog filter ++
        match Emission.ofCatalog catalog filter with
        | .error _ => []
        | .ok _ =>
          match (generate settings filter dryRun tree workplace).outcome with
          | .error _ => []
          | .ok report => endNotices dryRun report
  ([start] ++ catalogNotices settings tree workplace ++ body).map
    (·.inside (namingBlock [(.operation, "generate")]))

end SchemaScript.Log
