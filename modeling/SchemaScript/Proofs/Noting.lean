import SchemaScript.Proofs.Gathering
import SchemaScript.Proofs.Nodes

/-!
Which faults are noted. In a text without tags, without escapes and without a number of very many
parts, whatever is wrong is noted; the loading of documents ends early exactly if it meets a
document at fault in another way.
-/

namespace SchemaScript.Yaml

namespace Safe

variable {α β : Type} {text : List Char}

theorem mapM {f : α → Except Fault β} {xs : List α}
    (safe : ∀ x ∈ xs, Safe text Anything (f x)) : Safe text Anything (xs.mapM f) := by
  cases made : xs.mapM f with
  | ok ys => trivial
  | error fault =>
    obtain ⟨x, listed, failed⟩ := exists_error_of_mapM made
    have wrong := safe x listed
    rw [failed] at wrong
    exact wrong

theorem foldlM {f : β → α → Except Fault β} {xs : List α} (b : β)
    (safe : ∀ b, ∀ x ∈ xs, Safe text Anything (f b x)) : Safe text Anything (xs.foldlM f b) := by
  induction xs generalizing b with
  | nil => trivial
  | cons x rest ih =>
    rw [List.foldlM_cons]
    exact (safe b x List.mem_cons_self).bind fun b _ =>
      ih b fun b y later => safe b y (List.mem_cons_of_mem _ later)

end Safe

def Short (text : List Char) : Prop := ∀ number, number <:+: text → ¬ IsOverlong number

theorem PlainIn.not_isOverlong {text content : List Char} (plain : PlainIn text content)
    (short : Short text) : ¬ IsOverlong content := by
  intro long
  rcases plain.whole with stands | ⟨c, inside, other⟩
  · exact short content stands long
  · cases other.symm.trans (long.chars c inside)

section Graph

variable {text : List Char} {graph : Graph}

theorem scalarValue_safe (short : Short text) {tag given : String} {value : ScalarText}
    (held : (Node.mk tag (.scalar value)).In text) (same : given = tag ∨ given = commonTag "str") :
    Safe text Anything (scalarValue given value) := by
  have asText : Safe text Anything (scalarValue (commonTag "str") value) := by
    obtain ⟨made, read⟩ := scalarValue_str value
    rw [read]
    trivial
  rcases same with rfl | rfl
  · rcases held with rfl | rfl | ⟨content, rfl, plain, rfl⟩
    · trivial
    · exact asText
    · cases read : scalarValue (tagOfForm content) (.text content) with
      | ok made => trivial
      | error fault =>
        rcases error_of_form plain.ended read with ordinary | long
        · exact .inl ordinary
        · exact absurd long (plain.not_isOverlong short)
  · exact asText

theorem textFor_of_none {number : Nat} (missing : graph[number]? = none) (tag : String) :
    graph.textFor tag number = .error .malformed := by
  simp only [Graph.textFor, Graph.textAt, missing]
  rfl

theorem textFor_of_scalar {number : Nat} {own : String} {value : ScalarText}
    (held : graph[number]? = some ⟨own, .scalar value⟩) (tag : String) :
    graph.textFor tag number = .ok value := by
  simp only [Graph.textFor, Graph.textAt, held]
  rfl

theorem take_safe (fits : graph.In text) (short : Short text) (taking : Taking) (number : Nat)
    (asKey : Bool) : Safe text Anything (taking.take graph number asKey) := by
  rw [Taking.take]
  refine .ite (fun _ => trivial) fun _ => .ite (fun _ => trivial) fun scalar => ?_
  generalize given : (if (asKey && graph.tagAt number == commonTag "value") = true then
    commonTag "str" else graph.tagAt number) = tag
  have same : tag = graph.tagAt number ∨ tag = commonTag "str" := by
    rw [← given]
    split
    · exact .inr rfl
    · exact .inl rfl
  dsimp only
  cases held : graph[number]? with
  | none =>
    rw [textFor_of_none held]
    exact .malformed
  | some node =>
    obtain ⟨own, content⟩ := node
    have shown : graph.tagAt number = own := by rw [Graph.tagAt, held]
    rw [shown] at same scalar
    cases content with
    | scalar value =>
      rw [textFor_of_scalar held]
      exact (scalarValue_safe short (fits number _ held) same).bind fun _ _ => trivial
    | sequence items => exact absurd (fits number _ held) scalar
    | mapping entries => exact absurd (fits number _ held) scalar

theorem entriesAt_safe (fuel : Nat) (around : List Nat) (number : Nat) :
    Safe text Anything (graph.entriesAt fuel around number) := by
  induction fuel generalizing around number with
  | zero => exact .malformed
  | succ fuel ih =>
    rw [Graph.entriesAt]
    split
    · refine .ite (fun _ => trivial) fun _ => ?_
      exact (Safe.mapM fun source _ => ih _ source).bind fun _ _ => trivial
    · exact .malformed

def Graph.Turn.Ends (turn : Graph.Turn) : Prop :=
  ∀ fault, turn.fault? = some fault → fault.isOrdinary = true

theorem ends_turnOfEntries (entries : List (Nat × Nat)) : (graph.turnOfEntries entries).Ends := by
  induction entries with
  | nil => nofun
  | cons entry rest ih =>
    rw [Graph.turnOfEntries]
    split
    · rintro fault ⟨⟩
      rfl
    · exact ih

theorem ends_pairsOf (nodes : List Nat) :
    ∀ fault, (graph.pairsOf nodes).2 = some fault → fault.isOrdinary = true := by
  induction nodes with
  | nil => nofun
  | cons item rest ih =>
    rw [Graph.pairsOf]
    split
    · exact ih
    · rintro fault ⟨⟩
      rfl

theorem collectionAt_safe (number : Nat) :
    Safe text (fun found => found.2.Ends) (graph.collectionAt number) := by
  rw [Graph.collectionAt]
  refine .ite (fun _ => ?_) fun _ => .ite (fun _ => ?_) fun _ => ?_
  · exact (entriesAt_safe _ _ _).bind fun entries _ => ends_turnOfEntries entries
  · exact (entriesAt_safe _ _ _).bind fun entries _ => ends_turnOfEntries entries
  · split
    · next nodes _ =>
      refine .ite (fun _ => ?_) fun _ => ?_
      · nofun
      · exact ends_pairsOf nodes
    · exact .malformed

theorem run_safe (fits : graph.In text) (short : Short text) (fuel : Nat) (taking : Taking) :
    Safe text Anything (Taking.run graph fuel taking) := by
  induction fuel generalizing taking with
  | zero => trivial
  | succ fuel ih =>
    rw [Taking.run]
    split
    · trivial
    · refine (collectionAt_safe _).bind fun found ends => ?_
      refine (Safe.foldlM _ fun taking entry _ => ?_).bind fun taking _ => ?_
      · exact take_safe fits short taking entry.1 entry.2
      · split
        · next fault failed => exact .inl (ends fault failed)
        · exact ih taking

end Graph

attribute [local irreducible] graphOf in
theorem read_safe {text : List Char} (tagless : '!' ∉ text) (short : Short text) :
    Safe text Anything (read text) := by
  rw [read]
  refine .ite (fun _ => .malformed) fun _ => (graphOf_safe tagless).bind fun found fits => ?_
  obtain ⟨graph, root?⟩ := found
  cases root? with
  | none => trivial
  | some root =>
    refine (take_safe fits short _ root false).bind fun taking _ => ?_
    exact (run_safe fits short _ taking).bind fun _ _ => trivial

end SchemaScript.Yaml

namespace SchemaScript

open Yaml

/-- What stands in the text of every document that ends a loading: the mark of a tag, an escape by
eight digits, or a number in base 60 of very many parts. -/
def IsMarked (text : List Char) : Prop :=
  '!' ∈ text ∨ HasLongEscape text ∨ ∃ number, number <:+: text ∧ IsOverlong number

theorem isOrdinary_of_read {text : List Char} {fault : Yaml.Fault} (plain : ¬ IsMarked text)
    (failed : Yaml.read text = .error fault) : fault.isOrdinary = true := by
  simp only [IsMarked, not_or, not_exists, not_and] at plain
  obtain ⟨tagless, escapeless, short⟩ := plain
  have safe := read_safe tagless short
  rw [failed] at safe
  exact safe.resolve_right escapeless

theorem isNoted_of_readDocument {content : ByteArray} {fault : DocumentFault}
    (failed : readDocument content = .error fault) :
    fault.isNoted = true ∨ ∃ chars wrong, Text.Utf8.decode content = .ok chars ∧
      Yaml.read (Text.unifyNewlines chars) = .error wrong ∧ fault = .form wrong := by
  rw [readDocument] at failed
  cases decoded : Text.Utf8.decode content with
  | error wrong =>
    rw [decoded] at failed
    cases failed
    exact .inl rfl
  | ok chars =>
    rw [decoded] at failed
    cases formed : Yaml.read (Text.unifyNewlines chars) with
    | error wrong =>
      simp only [Except.mapError, formed, bind, Except.bind] at failed
      cases failed
      exact .inr ⟨chars, wrong, rfl, formed, rfl⟩
    | ok value =>
      refine .inl ?_
      simp only [Except.mapError, formed, bind, Except.bind] at failed
      split at failed
      · cases failed
      · split at failed
        · cases failed
        · cases failed
          rfl
      · cases failed
        rfl

/-- A document that ends a loading is text with such a mark. -/
theorem SourceFile.exists_isMarked {file : SourceFile} (ends : ¬ file.Noted) :
    ∃ chars, Text.Utf8.decode file.content = .ok chars ∧ IsMarked (Text.unifyNewlines chars) := by
  by_contra plain
  refine ends fun fault failed => ?_
  rcases isNoted_of_readDocument failed with noted | ⟨chars, wrong, decoded, formed, rfl⟩
  · exact noted
  · exact isOrdinary_of_read (fun marked => plain ⟨chars, decoded, marked⟩) formed

section Load

variable {tree : FileTree} {workplace : Location} {directory : String}

theorem load_of_overlong {options : LoadOptions}
    (long : tree.Overlong workplace (Path.display directory) options.recursive) :
    ∃ path, load tree workplace directory options =
      .error (.refused (.refused .nameTooLong path)) := by
  obtain ⟨path, missed⟩ := discover_of_overlong long
  refine ⟨path, ?_⟩
  rw [load, missed]
  rfl

/-- The documents of a directory that is there are loaded, whatever they hold, unless a path is too
long for the search. The loading comes to its end, and then accounts for all documents, exactly if
it meets none with a fault that is not noted; such a document has a mark in its text. -/
theorem collects_of_directory (options : LoadOptions)
    (reached : tree.reachesDirectory workplace (Path.display directory) = true)
    (workers : ∀ n, options.workers = some n → 0 ≤ n) :
    (¬ tree.Overlong workplace (Path.display directory) options.recursive →
      ∃ files loading, discover tree workplace directory options.recursive = .ok files ∧
        load tree workplace directory options = .ok loading ∧
        (loading.stop? = none ↔ ∀ file, Met options.failFast files file → file.Noted) ∧
        (loading.stop? = none → loading.Accounts options.failFast files) ∧
        ∀ file, Met options.failFast files file → ¬ file.Noted →
          ∃ chars, Text.Utf8.decode file.content = .ok chars ∧
            IsMarked (Text.unifyNewlines chars)) ∧
    (tree.Overlong workplace (Path.display directory) options.recursive →
      ∃ path, load tree workplace directory options =
        .error (.refused (.refused .nameTooLong path))) := by
  refine ⟨fun short => ?_, load_of_overlong⟩
  rcases discover_cases tree workplace directory options.recursive with
    ⟨files, found, _⟩ | ⟨long, _⟩ | ⟨away, _⟩
  · have staffed : options.Staffed files := fun _ => workers
    have comesThrough : (Loading.upTo options.failFast directory files).stop? = none ↔
        ∀ file, Met options.failFast files file → file.Noted :=
      (Loading.stop?_eq_none_iff rfl).trans attempts_noted_iff
    refine ⟨files, .upTo options.failFast directory files, found, load_of_staffed found staffed,
      comesThrough, fun through => ?_, fun file _ => file.exists_isMarked⟩
    refine Loading.accounts_upTo directory fun patient file listed => ?_
    have met := comesThrough.1 through file
    rw [patient] at met
    exact met (met_of_mem listed)
  · exact absurd long short
  · cases reached.symm.trans away

end Load

namespace Sample

def wrongWord : SourceFile := ⟨["a.yaml"], "tables: !!bool x\n".toUTF8⟩

def wrongWordTree : FileTree where
  entries := [(["defs"], .directory), (["defs", "a.yaml"], .file wrongWord.content)]
  nodup := by decide

theorem discover_wrongWordTree : discover wrongWordTree [] "defs" true = .ok [wrongWord] := by
  have found : discover wrongWordTree [] "defs" true =
      .ok (documentsBelow wrongWordTree ["defs"] true) :=
    discover_of_not_tooDeep rfl (by decide) (overlong?_eq_none_iff.1 (by decide +kernel))
  have searched : searchDocuments wrongWordTree ["defs"] true = [wrongWord] := by decide +kernel
  rw [found, documentsBelow, searched]
  exact congrArg _ (List.mergeSort_of_pairwise (by decide))

theorem reaches_wrongWordTree :
    wrongWordTree.reachesDirectory [] (Path.display "defs") = true := by
  decide +kernel

theorem not_overlong_wrongWordTree :
    ¬ wrongWordTree.Overlong [] (Path.display "defs") true :=
  not_overlong ["defs"] rfl (by decide) (by decide +kernel)

theorem collects_of_directory_wrongWordTree :
    wrongWordTree.reachesDirectory [] (Path.display "defs") = true ∧
    (∀ n : Int, none = some n → 0 ≤ n) ∧
    ¬ wrongWordTree.Overlong [] (Path.display "defs") true ∧
    ∃ files loading, discover wrongWordTree [] "defs" true = .ok files ∧
      load wrongWordTree [] "defs" ⟨true, false, none⟩ = .ok loading ∧
      (loading.stop? = none ↔ ∀ file, Met false files file → file.Noted) ∧
      (loading.stop? = none → loading.Accounts false files) ∧
      ∀ file, Met false files file → ¬ file.Noted →
        ∃ chars, Text.Utf8.decode file.content = .ok chars ∧
          IsMarked (Text.unifyNewlines chars) :=
  ⟨reaches_wrongWordTree, nofun, not_overlong_wrongWordTree,
    (collects_of_directory ⟨true, false, none⟩ reaches_wrongWordTree nofun).1
      not_overlong_wrongWordTree⟩

theorem stops_wrongWordTree :
    wrongWordTree.reachesDirectory [] (Path.display "defs") = true ∧
    ∃ loading, load wrongWordTree [] "defs" ⟨true, false, none⟩ = .ok loading ∧
      loading.stop? = some (.document (.form (.truthWord "x"))) := by
  refine ⟨reaches_wrongWordTree, .upTo false "defs" [wrongWord], ?_, ?_⟩
  · exact load_of_staffed discover_wrongWordTree nofun
  · decide +kernel

end Sample

end SchemaScript
