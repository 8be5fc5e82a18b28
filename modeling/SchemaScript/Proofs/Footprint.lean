import SchemaScript.Proofs.Outcome
import SchemaScript.Proofs.Ways

/-!
What a run does to the files. One that is only to show its script, or has none, touches nothing. One
that writes its script leaves it in the file that the output path leads to, and nowhere else. One
that cannot write it takes nothing away and changes nothing, but may leave new directories behind on
the way to that file.
-/

namespace SchemaScript

namespace Path

theorem splitOn_eq_append_of_getLast? {cs : List Char} {c : Char} (last : cs.getLast? = some c)
    (open_ : c ≠ '/') : ∃ front name, cs.splitOn '/' = front ++ [name] ∧ name ≠ [] := by
  induction cs with
  | nil => cases last
  | cons d ds ih =>
    rw [List.splitOn_cons_eq_if_modifyHead]
    cases ds with
    | nil =>
      obtain rfl : d = c := by simpa using last
      exact ⟨[], [d], by simp [open_], by simp⟩
    | cons e es =>
      rw [List.getLast?_cons_cons] at last
      obtain ⟨front, name, whole, given⟩ := ih last
      rw [whole]
      split
      · exact ⟨[] :: front, name, rfl, given⟩
      · cases front with
        | nil => exact ⟨[], d :: name, rfl, by simp⟩
        | cons first rest => exact ⟨(d :: first) :: rest, name, rfl, given⟩

end Path

namespace FileTree

variable {tree before after : FileTree} {workplace location : Location} {path : String}
  {content : ByteArray}

theorem follow_nonempty {names : List String} (given : names ≠ [])
    (away : tree.isDirectory location = false) :
    tree.follow location names = .error .notDirectory := by
  cases names with
  | nil => exact absurd rfl given
  | cons name names => simp [follow_cons, advance, away, Except.bind]

theorem follow_filter_append (tree : FileTree) (location : Location) (front : List String)
    {rest : List String} (given : rest ≠ []) :
    tree.follow location (front.filter (!·.isEmpty) ++ rest) =
      tree.follow location (front ++ rest) := by
  induction front generalizing location with
  | nil => rfl
  | cons name front ih =>
    cases empty : name.isEmpty with
    | false =>
      simp only [List.filter_cons, empty, Bool.not_false, ↓reduceIte, List.cons_append, follow_cons]
      cases tree.advance location name with
      | error trouble => rfl
      | ok next => exact ih next
    | true =>
      simp only [List.filter_cons, empty, Bool.not_true, Bool.false_eq_true, ↓reduceIte,
        List.cons_append, follow_cons]
      cases there : tree.isDirectory location with
      | false =>
        rw [follow_nonempty (by simp [given]) there]
        simp [advance, there, Except.bind]
      | true =>
        have stayed : tree.advance location name = .ok location := by
          simp [advance, there, Path.isCurrent, empty]
        rw [stayed]
        exact ih location

theorem follow_names_eq {c : Char} (last : path.toList.getLast? = some c) (open_ : c ≠ '/') :
    tree.follow location (Path.names path) = tree.follow location (Path.steps path) := by
  obtain ⟨front, name, whole, given⟩ := Path.splitOn_eq_append_of_getLast? last open_
  have names : Path.names path = front.map String.ofList ++ [String.ofList name] := by
    rw [Path.names, whole, List.map_append]
    rfl
  have steps : Path.steps path =
      (front.map String.ofList).filter (!·.isEmpty) ++ [String.ofList name] := by
    have kept : (String.ofList name).isEmpty = false := by simpa using given
    rw [Path.steps, Path.stepsOf, ← Path.names, names, List.filter_append]
    simp [kept]
  rw [names, steps, follow_filter_append tree location _ (List.cons_ne_nil _ _)]

/-- One tree is another with a file put where a path leads, and perhaps with new directories on the
way there. -/
structure Delivered (before after : FileTree) (workplace : Location) (path : String)
    (content : ByteArray) (location : Location) : Prop where
  located : after.locate workplace path = .ok location
  content : after.get? location = some (.file content)
  free : before.get? location ≠ some .directory
  kept : ∀ other entry, other ≠ location → before.get? other = some entry →
    after.get? other = some entry
  made : ∀ other entry, other ≠ location → before.get? other = none →
    after.get? other = some entry → entry = .directory ∧ after.OnTheWay workplace path other

theorem checkPath_of_approach {last : Last} (approached : tree.approach workplace path = .ok last) :
    checkPath path = .ok () := by
  unfold approach at approached
  cases checked : checkPath path with
  | error fault =>
    rw [checked] at approached
    cases approached
  | ok _ => rfl

theorem writeFile_eq_ok (written : tree.writeFile workplace path content = .ok after) :
    ∃ directory name, tree.approach workplace path = .ok (.name directory name) ∧
      path.toList.getLast? ≠ some '/' ∧ name.utf8ByteSize ≤ greatestName ∧
      tree.isDirectory (directory ++ [name]) = false ∧
      after = tree.put (directory ++ [name]) (.file content) := by
  unfold writeFile at written
  cases approached : tree.approach workplace path with
  | error fault =>
    rw [approached] at written
    cases written
  | ok last =>
    simp only [approached, bind, Except.bind, throw, throwThe, MonadExceptOf.throw, pure,
      Except.pure] at written
    cases last with
    | directory => cases written
    | name directory name =>
      refine ⟨directory, name, rfl, ?_⟩
      simp only at written
      split at written
      · cases written
      · next unclosed =>
        split at written
        · cases written
        · next short =>
          split at written
          · cases written
          · next free =>
            exact ⟨by simpa using unclosed, Nat.not_lt.1 short, by simpa using free,
              (Except.ok.inj written).symm⟩

/-- Whether a file can be written does not depend on what is written to it. -/
theorem map_writeFile (tree : FileTree) (workplace : Location) (path : String)
    (content other : ByteArray) :
    (tree.writeFile workplace path content).map (fun _ => ()) =
      (tree.writeFile workplace path other).map fun _ => () := by
  unfold writeFile
  cases tree.approach workplace path with
  | error fault => rfl
  | ok last =>
    cases last with
    | directory => rfl
    | name directory name =>
      simp only [bind, Except.bind, throw, throwThe, MonadExceptOf.throw, pure, Except.pure]
      by_cases closed : path.toList.getLast? == some '/'
      · simp only [closed, ↓reduceIte]
      · by_cases long : greatestName < name.utf8ByteSize
        · simp only [closed, long, Bool.false_eq_true, ↓reduceIte]
        · by_cases taken : tree.isDirectory (directory ++ [name]) = true
          · simp only [closed, long, taken, Bool.false_eq_true, ↓reduceIte]
          · simp only [closed, long, taken, Bool.false_eq_true, ↓reduceIte]
            rfl

theorem fault?_writeBelow (content other : ByteArray) :
    (tree.writeBelow workplace path content).fault? =
      (tree.writeBelow workplace path other).fault? := by
  simp only [writeBelow]
  generalize (if (Path.parent path).isEmpty = true then (⟨tree, none⟩ : Change)
    else tree.ensureDirectories workplace (Path.parent path)) = above
  split
  · rfl
  · have same := map_writeFile above.tree workplace path content other
    cases first : above.tree.writeFile workplace path content with
    | error fault =>
      cases second : above.tree.writeFile workplace path other with
      | error fault' =>
        rw [first, second] at same
        cases same
        rfl
      | ok after =>
        rw [first, second] at same
        cases same
    | ok after =>
      cases second : above.tree.writeFile workplace path other with
      | error fault =>
        rw [first, second] at same
        cases same
      | ok afterToo => rfl

theorem walksIn_put (free : tree.isDirectory location = false) :
    tree.WalksIn (tree.put location (.file content)) where
  stands other there := by
    by_cases same : other = location
    · subst same
      by_cases root : other = []
      · simp [root, get?]
      · simp [get?_put root]
    · rwa [get?_put_of_ne same]
  isDirectory other there := by
    have apart : other ≠ location := by
      rintro rfl
      cases free.symm.trans there
    unfold FileTree.isDirectory at there ⊢
    rwa [get?_put_of_ne apart]

theorem exists_delivered_writeFile (written : tree.writeFile workplace path content = .ok after) :
    ∃ location, tree.Delivered after workplace path content location := by
  obtain ⟨directory, name, approached, unclosed, short, free, rfl⟩ := writeFile_eq_ok written
  have put : (tree.put (directory ++ [name]) (.file content)).get? (directory ++ [name]) =
      some (.file content) := get?_put (by simp)
  refine ⟨directory ++ [name], ?_, put, ?_, ?_, ?_⟩
  · have checked := checkPath_of_approach approached
    have reached := follow_steps_eq approached short (walksIn_put free) put
    obtain ⟨c, last⟩ : ∃ c, path.toList.getLast? = some c := by
      cases last : path.toList.getLast? with
      | some c => exact ⟨c, rfl⟩
      | none =>
        have empty : path = "" := by simpa using last
        rw [empty] at checked
        cases checked
    have open_ : c ≠ '/' := by
      rintro rfl
      exact unclosed last
    rw [locate, checked, follow_names_eq last open_, reached]
    rfl
  · rw [Ne, ← isDirectory_iff, free]
    exact Bool.false_ne_true
  · intro other entry apart found
    rwa [get?_put_of_ne apart]
  · intro other entry apart absent found
    rw [get?_put_of_ne apart, absent] at found
    cases found

theorem Delivered.walksIn (delivered : before.Delivered after workplace path content location) :
    before.WalksIn after where
  stands other there := by
    by_cases same : other = location
    · rw [same, delivered.content]
      rfl
    · obtain ⟨entry, found⟩ := Option.isSome_iff_exists.1 there
      rw [delivered.kept other entry same found]
      rfl
  isDirectory other there := by
    rw [isDirectory_iff] at there ⊢
    have apart : other ≠ location := by
      rintro rfl
      exact delivered.free there
    exact delivered.kept other .directory apart there

theorem Prepared.delivered {middle : FileTree} (prepared : before.Prepared middle workplace path)
    (delivered : middle.Delivered after workplace path content location) :
    before.Delivered after workplace path content location where
  located := delivered.located
  content := delivered.content
  free there := delivered.free (prepared.kept location .directory there)
  kept other entry apart found :=
    delivered.kept other entry apart (prepared.kept other entry found)
  made other entry apart absent found := by
    cases between : middle.get? other with
    | none => exact delivered.made other entry apart between found
    | some entry' =>
      obtain ⟨rfl, names, first, reached⟩ := prepared.made other entry' absent between
      cases (delivered.kept other _ apart between).symm.trans found
      exact ⟨rfl, names, first, delivered.walksIn.follow reached⟩

theorem prepared_parent (tree : FileTree) (workplace : Location) (path : String) :
    tree.Prepared (if (Path.parent path).isEmpty then (⟨tree, none⟩ : Change)
      else tree.ensureDirectories workplace (Path.parent path)).tree workplace path := by
  split
  · exact .refl tree workplace path
  · next given =>
    have above : (Path.split path).1 ≠ "" := by simpa [Path.parent] using given
    exact (prepared_ensureDirectoriesFrom _ tree workplace (Path.parent path)).of_begins
      (Path.begins_split above)

theorem writeBelow_cases (tree : FileTree) (workplace : Location) (path : String)
    (content : ByteArray) :
    ((tree.writeBelow workplace path content).fault? = none ∧ ∃ location,
      tree.Delivered (tree.writeBelow workplace path content).tree workplace path content
        location) ∨
    ∃ fault, (tree.writeBelow workplace path content).fault? = some fault ∧
      tree.Prepared (tree.writeBelow workplace path content).tree workplace path := by
  have prepared := prepared_parent tree workplace path
  simp only [writeBelow]
  generalize (if (Path.parent path).isEmpty = true then (⟨tree, none⟩ : Change)
    else tree.ensureDirectories workplace (Path.parent path)) = above at prepared ⊢
  cases met : above.fault? with
  | some fault => exact .inr ⟨fault, by simp [met], by simpa [met] using prepared⟩
  | none =>
    simp only [Option.isSome_none, Bool.false_eq_true, ↓reduceIte]
    cases written : above.tree.writeFile workplace path content with
    | error fault => exact .inr ⟨fault, rfl, prepared⟩
    | ok after =>
      obtain ⟨location, delivered⟩ := exists_delivered_writeFile written
      exact .inl ⟨rfl, location, prepared.delivered delivered⟩

end FileTree

section Runs

variable {settings : Settings} {filter : NameFilter} {dryRun : Bool} {tree : FileTree}
  {workplace : Location} {report : Report}

def Settings.HasScript (settings : Settings) (filter : NameFilter) (tree : FileTree)
    (workplace : Location) : Prop :=
  ∃ dry, (generate settings filter true tree workplace).outcome = .ok dry ∧ dry.success = true

/-- What a run with a report has done to the files. -/
structure Report.Footprint (report : Report) (settings : Settings) (filter : NameFilter)
    (dryRun : Bool) (before after : FileTree) (workplace : Location) : Prop where
  untouched : dryRun = true ∨ ¬ settings.HasScript filter before workplace →
    after = before ∧ report.outputPath = none
  /-- Otherwise it is the writing that decides whether the run succeeds. -/
  decided : dryRun = false → settings.HasScript filter before workplace → ∃ path,
    settings.outputPath = .ok path ∧ (report.success = true ↔
      (before.writeBelow workplace path report.sql.toUTF8).fault? = none)
  written : dryRun = false → report.success = true → ∃ path location,
    settings.outputPath = .ok path ∧ report.outputPath = some path ∧
      before.Delivered after workplace path report.sql.toUTF8 location
  /-- A script that cannot be written has taken nothing away. -/
  unwritten : dryRun = false → settings.HasScript filter before workplace →
    report.success = false → ∃ path,
      settings.outputPath = .ok path ∧ report.outputPath = none ∧
        before.Prepared after workplace path

theorem Report.footprint_dry {report : Report} (unwritten : report.outputPath = none) :
    report.Footprint settings filter true tree tree workplace where
  untouched _ := ⟨rfl, unwritten⟩
  decided wet := absurd wet (by decide)
  written wet := absurd wet (by decide)
  unwritten wet := absurd wet (by decide)

theorem Report.footprint_failed {failure : Failure}
    (scriptless : ¬ settings.HasScript filter tree workplace) :
    (Report.failed failure).Footprint settings filter dryRun tree tree workplace where
  untouched _ := ⟨rfl, rfl⟩
  decided _ made := absurd made scriptless
  written _ succeeded := by cases succeeded
  unwritten _ made := absurd made scriptless

theorem scriptless_of_failed {failure : Failure}
    (done : (generate settings filter true tree workplace).outcome = .ok (.failed failure)) :
    ¬ settings.HasScript filter tree workplace := by
  rintro ⟨dry, shown, succeeded⟩
  cases done.symm.trans shown
  cases succeeded

theorem footprint_deliver {catalog : Catalog} {rendered : Report}
    (fresh : rendered.success = true) (pathless : rendered.outputPath = none)
    (scripted : settings.HasScript filter tree workplace)
    (done : (deliver settings tree workplace catalog rendered).outcome = .ok report) :
    report.Footprint settings filter false tree
      (deliver settings tree workplace catalog rendered).tree workplace := by
  cases placed : settings.outputPath with
  | error fault =>
    simp only [deliver, placed] at done
    cases done
  | ok path =>
    rcases tree.writeBelow_cases workplace path rendered.content with
      ⟨accepted, location, delivered⟩ | ⟨fault, refused, prepared⟩
    · cases unicode : rendered.isUnicode with
      | false =>
        simp only [deliver, placed, accepted, unicode, Bool.false_eq_true, ↓reduceIte] at done
        cases done
      | true =>
        simp only [deliver, placed, accepted, unicode, ↓reduceIte] at done ⊢
        cases done
        rw [Report.content_eq unicode] at accepted delivered ⊢
        refine ⟨by simp [scripted], fun _ _ => ⟨path, placed, ?_⟩,
          fun _ _ => ⟨path, location, placed, rfl, delivered⟩, fun _ _ failed => ?_⟩
        · exact iff_of_true fresh accepted
        · cases fresh.symm.trans failed
    · cases fault with
      | nullCharacter =>
        simp only [deliver, placed, refused] at done
        cases done
      | refused trouble refusedPath =>
        simp only [deliver, placed, refused] at done ⊢
        cases done
        refine ⟨by simp [scripted], fun _ _ => ⟨path, placed, ?_⟩, fun _ succeeded => ?_,
          fun _ _ _ => ⟨path, placed, pathless, prepared⟩⟩
        · have met : (tree.writeBelow workplace path rendered.sql.toUTF8).fault? ≠ none := by
            rw [FileTree.fault?_writeBelow _ rendered.content, refused]
            exact Option.some_ne_none _
          exact iff_of_false Bool.false_ne_true met
        · cases succeeded

end Runs

/-- What a run leaves in the files is told by its report: it writes its script to one file as a
whole, or leaves every file as it was. -/
theorem footprint_of_report {settings : Settings} {filter : NameFilter} {dryRun : Bool}
    {tree : FileTree} {workplace : Location} {report : Report}
    (done : (generate settings filter dryRun tree workplace).outcome = .ok report) :
    report.Footprint settings filter dryRun tree
      (generate settings filter dryRun tree workplace).tree workplace := by
  cases made : settings.catalog tree workplace with
  | error obstacle =>
    cases obstacle with
    | halt halt =>
      rw [generate, made] at done
      cases done
    | failure failure =>
      have failed : (generate settings filter true tree workplace).outcome = .ok (.failed failure) :=
        generate_of_failure made
      have scriptless := scriptless_of_failed failed
      simp only [generate, made] at done ⊢
      cases done
      exact Report.footprint_failed scriptless
  | ok catalog =>
    cases emitted : Emission.ofCatalog catalog filter with
    | error cycle =>
      have scriptless := scriptless_of_failed (generate_of_cycle made emitted)
      simp only [generate, made, emitted] at done ⊢
      cases done
      exact Report.footprint_failed scriptless
    | ok emission =>
      have scripted : settings.HasScript filter tree workplace :=
        ⟨_, generate_of_emission made emitted true, rfl⟩
      cases dryRun with
      | true =>
        simp only [generate, made, emitted, ↓reduceIte] at done ⊢
        cases done
        exact Report.footprint_dry rfl
      | false =>
        simp only [generate, made, emitted, Bool.false_eq_true, ↓reduceIte] at done ⊢
        exact footprint_deliver rfl rfl scripted done

namespace Sample

theorem footprint_of_report_paint :
    ∃ report, (generate (fromDirectory "defs") acceptAll false paintTree []).outcome =
        .ok report ∧
      report.Footprint (fromDirectory "defs") acceptAll false paintTree
        (generate (fromDirectory "defs") acceptAll false paintTree []).tree [] := by
  have reports : (generate (fromDirectory "defs") acceptAll false paintTree []).outcome.isOk =
      true := by
    decide +kernel
  cases done : (generate (fromDirectory "defs") acceptAll false paintTree []).outcome with
  | error halt =>
    rw [done] at reports
    cases reports
  | ok report => exact ⟨report, rfl, footprint_of_report done⟩

end Sample

end SchemaScript
