import Mathlib.Data.List.Basic
import Mathlib.Data.List.TakeWhile
import SchemaScript.FileTree

/-!
The way to a file. Directories that are missing on a way are made from the top down; whatever stood
anywhere before stays as it is, also where a later step fails, and all that is new is directories on
the way.
-/

namespace SchemaScript

namespace Path

def stepsOf (cs : List Char) : List String :=
  ((cs.splitOn '/').map String.ofList).filter (!·.isEmpty)

def steps (path : String) : List String := stepsOf path.toList

theorem stepsOf_append_slash (xs ys : List Char) :
    stepsOf (xs ++ '/' :: ys) = stepsOf xs ++ stepsOf ys := by
  simp only [stepsOf, List.splitOn_append_cons_self, List.map_append, List.filter_append]

theorem stepsOf_of_slashes {cs : List Char} (slashes : ∀ c ∈ cs, c = '/') : stepsOf cs = [] := by
  induction cs with
  | nil => rfl
  | cons c cs ih =>
    obtain rfl := slashes c List.mem_cons_self
    have split := stepsOf_append_slash [] cs
    rw [List.nil_append] at split
    rw [split, ih fun d later => slashes d (List.mem_cons_of_mem _ later)]
    rfl

theorem stepsOf_append_slashes (xs : List Char) {ys : List Char} (slashes : ∀ c ∈ ys, c = '/') :
    stepsOf (xs ++ ys) = stepsOf xs := by
  cases ys with
  | nil => rw [List.append_nil]
  | cons c ys =>
    obtain rfl := slashes c List.mem_cons_self
    have none : stepsOf ys = [] :=
      stepsOf_of_slashes fun d later => slashes d (List.mem_cons_of_mem _ later)
    rw [stepsOf_append_slash, none, List.append_nil]

theorem withoutFinalSlashes_append (cs : List Char) :
    ∃ slashes, withoutFinalSlashes cs ++ slashes = cs ∧ ∀ c ∈ slashes, c = '/' := by
  unfold withoutFinalSlashes
  split
  · exact ⟨[], List.append_nil cs, nofun⟩
  · refine ⟨(cs.reverse.takeWhile (· == '/')).reverse, ?_, ?_⟩
    · rw [← List.reverse_append, List.takeWhile_append_dropWhile, List.reverse_reverse]
    · intro c h
      simpa using List.mem_takeWhile_imp (List.mem_reverse.1 h)

theorem stepsOf_withoutFinalSlashes (cs : List Char) :
    stepsOf (withoutFinalSlashes cs) = stepsOf cs := by
  obtain ⟨slashes, whole, only⟩ := withoutFinalSlashes_append cs
  have same := stepsOf_append_slashes (withoutFinalSlashes cs) only
  rw [whole] at same
  exact same.symm

structure Begins (head path : String) : Prop where
  steps : steps head <+: steps path
  isAbsolute : isAbsolute head = isAbsolute path

theorem Begins.trans {first second third : String} (h : Begins first second)
    (next : Begins second third) : Begins first third :=
  ⟨h.steps.trans next.steps, h.isAbsolute.trans next.isAbsolute⟩

theorem exists_split (path : String) :
    ∃ head tail, path.toList = head ++ tail ∧ (head = [] ∨ ∃ front, head = front ++ ['/']) ∧
      (split path).1 = String.ofList (withoutFinalSlashes head) ∧
      (split path).2 = String.ofList tail := by
  refine ⟨(path.toList.reverse.dropWhile (· != '/')).reverse,
    (path.toList.reverse.takeWhile (· != '/')).reverse, ?_, ?_, rfl, rfl⟩
  · rw [← List.reverse_append, List.takeWhile_append_dropWhile, List.reverse_reverse]
  · cases rest : path.toList.reverse.dropWhile (· != '/') with
    | nil => exact .inl rfl
    | cons c cs =>
      have stopped := List.head?_dropWhile_not (· != '/') path.toList.reverse
      rw [rest] at stopped
      obtain rfl : c = '/' := by simpa using stopped
      exact .inr ⟨cs.reverse, List.reverse_cons⟩

theorem begins_split {path : String} (given : (split path).1 ≠ "") :
    Begins (split path).1 path := by
  obtain ⟨head, tail, whole, slash, first, _⟩ := exists_split path
  rw [first] at given ⊢
  obtain ⟨slashes, parts, _⟩ := withoutFinalSlashes_append head
  constructor
  · rw [steps, steps, String.toList_ofList, stepsOf_withoutFinalSlashes, whole]
    rcases slash with rfl | ⟨front, rfl⟩
    · exact List.nil_prefix
    · rw [stepsOf_append_slash, List.append_assoc, List.singleton_append, stepsOf_append_slash]
      have ended : stepsOf [] = [] := rfl
      rw [ended, List.append_nil]
      exact List.prefix_append _ _
  · -- The first part is not empty, so it has the first character of the path.
    rw [isAbsolute, isAbsolute, String.toList_ofList, whole]
    cases kept : withoutFinalSlashes head with
    | nil => exact absurd (by rw [kept]) given
    | cons c cs =>
      rw [← parts, kept]
      rfl

theorem begins_splitDirectory {path : String} (given : (FileTree.splitDirectory path).1 ≠ "") :
    Begins (FileTree.splitDirectory path).1 path := by
  unfold FileTree.splitDirectory at given ⊢
  cases ended : (split path).2.isEmpty with
  | false =>
    simp only [ended, Bool.false_eq_true, ↓reduceIte] at given ⊢
    exact begins_split given
  | true =>
    simp only [ended, ↓reduceIte] at given ⊢
    have outer : (split path).1 ≠ "" := by
      intro none
      rw [none] at given
      exact given (by decide)
    exact (begins_split given).trans (begins_split outer)

end Path

namespace FileTree

variable {tree before after : FileTree} {workplace location : Location} {path : String}

def advance (tree : FileTree) (location : Location) (name : String) :
    Except PathTrouble Location :=
  if !tree.isDirectory location then .error .notDirectory
  else if Path.isCurrent name then .ok location
  else if name == ".." then .ok location.dropLast
  else if greatestName < name.utf8ByteSize then .error .nameTooLong
  else if (tree.get? (location ++ [name])).isSome then .ok (location ++ [name])
  else .error .missing

theorem follow_cons (tree : FileTree) (location : Location) (name : String)
    (names : List String) :
    tree.follow location (name :: names) =
      (tree.advance location name).bind (tree.follow · names) := by
  rw [follow, advance]
  repeat' split
  all_goals rfl

theorem follow_append (tree : FileTree) (location : Location) (first second : List String) :
    tree.follow location (first ++ second) =
      (tree.follow location first).bind (tree.follow · second) := by
  induction first generalizing location with
  | nil => rfl
  | cons name names ih =>
    rw [List.cons_append, follow_cons, follow_cons]
    cases tree.advance location name with
    | error trouble => rfl
    | ok next => exact ih next

theorem follow_append_eq_ok_iff {first second : List String} {target : Location} :
    tree.follow location (first ++ second) = .ok target ↔
      ∃ next, tree.follow location first = .ok next ∧ tree.follow next second = .ok target := by
  rw [follow_append]
  cases tree.follow location first with
  | error trouble => simp [Except.bind]
  | ok next => simp [Except.bind]

theorem follow_singleton (tree : FileTree) (location : Location) (name : String) :
    tree.follow location [name] = tree.advance location name := by
  rw [follow_cons]
  cases tree.advance location name <;> rfl

theorem isDirectory_of_advance {name : String} {next : Location}
    (reached : tree.advance location name = .ok next) : tree.isDirectory location = true := by
  by_contra missing
  rw [Bool.not_eq_true] at missing
  simp [advance, missing] at reached

theorem advance_current {next : Location} (reached : tree.advance location "." = .ok next) :
    next = location := by
  have there := isDirectory_of_advance reached
  have current : Path.isCurrent "." = true := by decide
  simp only [advance, there, current, Bool.not_true, Bool.false_eq_true, ↓reduceIte] at reached
  exact (Except.ok.inj reached).symm

/-- Whatever stands in one tree stands in the other, and is a directory there if it is one here. -/
structure WalksIn (before after : FileTree) : Prop where
  stands : ∀ location, (before.get? location).isSome → (after.get? location).isSome
  isDirectory : ∀ location, before.isDirectory location = true → after.isDirectory location = true

theorem WalksIn.advance (walks : before.WalksIn after) {name : String} {next : Location}
    (reached : before.advance location name = .ok next) :
    after.advance location name = .ok next := by
  have there := isDirectory_of_advance reached
  simp only [FileTree.advance, there, walks.isDirectory location there] at reached ⊢
  cases found : (before.get? (location ++ [name])).isSome with
  | false =>
    -- Then the name is that of the directory itself or of the one above.
    rw [found] at reached
    grind
  | true =>
    rw [found] at reached
    rw [walks.stands _ found]
    exact reached

theorem WalksIn.follow (walks : before.WalksIn after) {names : List String} {target : Location}
    (reached : before.follow location names = .ok target) :
    after.follow location names = .ok target := by
  induction names generalizing location with
  | nil => exact reached
  | cons name names ih =>
    rw [follow_cons] at reached ⊢
    cases first : before.advance location name with
    | error trouble =>
      rw [first] at reached
      cases reached
    | ok next =>
      rw [first] at reached
      rw [walks.advance first]
      exact ih reached

def KeptIn (before after : FileTree) : Prop :=
  ∀ location entry, before.get? location = some entry → after.get? location = some entry

theorem isDirectory_iff : tree.isDirectory location = true ↔
    tree.get? location = some .directory := by
  unfold isDirectory
  split <;> simp_all

theorem KeptIn.walksIn (kept : before.KeptIn after) : before.WalksIn after where
  stands location there := by
    obtain ⟨entry, found⟩ := Option.isSome_iff_exists.1 there
    rw [kept location entry found]
    rfl
  isDirectory location there :=
    isDirectory_iff.2 (kept location .directory (isDirectory_iff.1 there))

/-- A location that is met when the names of a path are followed. -/
def OnTheWay (tree : FileTree) (workplace : Location) (path : String) (location : Location) :
    Prop :=
  ∃ names, names <+: Path.steps path ∧ tree.follow (origin workplace path) names = .ok location

theorem OnTheWay.of_begins {head : String} (met : tree.OnTheWay workplace head location)
    (begins : Path.Begins head path) : tree.OnTheWay workplace path location := by
  obtain ⟨names, first, reached⟩ := met
  refine ⟨names, first.trans begins.steps, ?_⟩
  rwa [origin, ← begins.isAbsolute]

theorem KeptIn.onTheWay (kept : before.KeptIn after)
    (met : before.OnTheWay workplace path location) : after.OnTheWay workplace path location := by
  obtain ⟨names, first, reached⟩ := met
  exact ⟨names, first, kept.walksIn.follow reached⟩

/-- Nothing in a tree has changed but that there may be new directories on the way of a path. -/
structure Prepared (before after : FileTree) (workplace : Location) (path : String) : Prop where
  kept : before.KeptIn after
  made : ∀ location entry, before.get? location = none → after.get? location = some entry →
    entry = .directory ∧ after.OnTheWay workplace path location

namespace Prepared

theorem refl (tree : FileTree) (workplace : Location) (path : String) :
    tree.Prepared tree workplace path where
  kept _ _ found := found
  made _ _ absent found := by cases absent.symm.trans found

theorem trans {middle : FileTree} (first : before.Prepared middle workplace path)
    (second : middle.Prepared after workplace path) : before.Prepared after workplace path where
  kept location entry found := second.kept location entry (first.kept location entry found)
  made location entry absent found := by
    cases between : middle.get? location with
    | none => exact second.made location entry between found
    | some entry' =>
      obtain ⟨rfl, met⟩ := first.made location entry' absent between
      have same := (second.kept location _ between).symm.trans found
      cases same
      exact ⟨rfl, second.kept.onTheWay met⟩

theorem of_begins {head : String} (prepared : before.Prepared after workplace head)
    (begins : Path.Begins head path) : before.Prepared after workplace path where
  kept := prepared.kept
  made location entry absent found := by
    obtain ⟨isDirectory, met⟩ := prepared.made location entry absent found
    exact ⟨isDirectory, met.of_begins begins⟩

end Prepared

theorem keptIn_put {entry : FileEntry} (absent : tree.get? location = none) :
    tree.KeptIn (tree.put location entry) := by
  intro other found there
  have apart : other ≠ location := by
    rintro rfl
    cases absent.symm.trans there
  rw [get?_put_of_ne apart]
  exact there

theorem approach_eq_name {directory : Location} {name : String}
    (approached : tree.approach workplace path = .ok (.name directory name)) :
    Path.steps path = (Path.steps path).dropLast ++ [name] ∧ name ≠ "." ∧ name ≠ ".." ∧
      tree.follow (origin workplace path) (Path.steps path).dropLast = .ok directory ∧
      tree.isDirectory directory = true := by
  have names : (Path.names path).filter (!·.isEmpty) = Path.steps path := rfl
  unfold approach at approached
  cases checked : checkPath path with
  | error fault =>
    simp only [checked, bind, Except.bind] at approached
    cases approached
  | ok _ =>
    simp only [checked, bind, Except.bind, names] at approached
    cases last : (Path.steps path).getLast? with
    | none =>
      simp only [last] at approached
      cases approached
    | some final =>
      simp only [last] at approached
      cases reached : tree.follow (origin workplace path) ((Path.steps path).dropLast ++ ["."]) with
      | error trouble =>
        rw [reached] at approached
        cases approached
      | ok target =>
        simp only [reached, Except.mapError] at approached
        split at approached
        · cases approached
        · next proper =>
          cases approached
          obtain ⟨next, walked, stayed⟩ := follow_append_eq_ok_iff.1 reached
          rw [follow_singleton] at stayed
          obtain rfl := advance_current stayed
          have whole := List.dropLast_append_getLast? name last
          simp only [Bool.or_eq_true, beq_iff_eq, not_or] at proper
          exact ⟨whole.symm, proper.1, proper.2, walked, isDirectory_of_advance stayed⟩

theorem advance_name {directory : Location} {name : String} (there : tree.isDirectory directory)
    (proper : Path.isCurrent name = false) (below : name ≠ "..")
    (short : name.utf8ByteSize ≤ greatestName)
    (stands : (tree.get? (directory ++ [name])).isSome) :
    tree.advance directory name = .ok (directory ++ [name]) := by
  simp [advance, there, proper, below, Nat.not_lt.2 short, stands]

theorem makeDirectory_eq_ok (made : tree.makeDirectory workplace path = .ok after) :
    ∃ directory name, tree.approach workplace path = .ok (.name directory name) ∧
      name.utf8ByteSize ≤ greatestName ∧ tree.get? (directory ++ [name]) = none ∧
      after = tree.put (directory ++ [name]) .directory := by
  unfold makeDirectory at made
  cases approached : tree.approach workplace path with
  | error fault =>
    rw [approached] at made
    cases made
  | ok last =>
    simp only [approached, bind, Except.bind, throw, throwThe, MonadExceptOf.throw, pure,
      Except.pure] at made
    cases last with
    | directory => cases made
    | name directory name =>
      refine ⟨directory, name, rfl, ?_⟩
      simp only at made
      split at made
      · cases made
      · next short =>
        split at made
        · cases made
        · next free => exact ⟨Nat.not_lt.1 short, by simpa using free, (Except.ok.inj made).symm⟩

theorem follow_steps_eq {directory : Location} {name : String} {entry : FileEntry}
    (approached : tree.approach workplace path = .ok (.name directory name))
    (short : name.utf8ByteSize ≤ greatestName) (walks : tree.WalksIn after)
    (put : after.get? (directory ++ [name]) = some entry) :
    after.follow (origin workplace path) (Path.steps path) = .ok (directory ++ [name]) := by
  obtain ⟨whole, notCurrent, notAbove, walked, there⟩ := approach_eq_name approached
  have nonempty : name.isEmpty = false := by
    have listed : name ∈ Path.steps path := whole ▸ List.mem_concat_self
    simpa using (List.mem_filter.1 listed).2
  rw [whole]
  refine follow_append_eq_ok_iff.2 ⟨directory, walks.follow walked, ?_⟩
  rw [follow_singleton]
  exact advance_name (walks.isDirectory _ there) (by simp [Path.isCurrent, nonempty, notCurrent])
    notAbove short (by rw [put]; rfl)

theorem prepared_makeDirectory (made : tree.makeDirectory workplace path = .ok after) :
    tree.Prepared after workplace path := by
  obtain ⟨directory, name, approached, short, absent, rfl⟩ := makeDirectory_eq_ok made
  have kept : tree.KeptIn (tree.put (directory ++ [name]) .directory) := keptIn_put absent
  have put : (tree.put (directory ++ [name]) .directory).get? (directory ++ [name]) =
      some .directory := get?_put (by simp)
  refine ⟨kept, fun other entry missing found => ?_⟩
  by_cases same : other = directory ++ [name]
  · subst same
    cases put.symm.trans found
    exact ⟨rfl, Path.steps path, List.prefix_refl _,
      follow_steps_eq approached short kept.walksIn put⟩
  · rw [get?_put_of_ne same, missing] at found
    cases found

theorem prepared_ensureDirectory (tree : FileTree) (workplace : Location) (path : String) :
    tree.Prepared (tree.ensureDirectory workplace path).tree workplace path := by
  unfold ensureDirectory
  cases made : tree.makeDirectory workplace path with
  | ok after => exact prepared_makeDirectory made
  | error fault => exact .refl tree workplace path

/-- Each directory on the way is made by one step; what the steps before it made stays. -/
theorem prepared_ensureDirectoriesFrom (fuel : Nat) (tree : FileTree) (workplace : Location)
    (path : String) :
    tree.Prepared (ensureDirectoriesFrom workplace fuel tree path).tree workplace path := by
  induction fuel generalizing path with
  | zero => exact prepared_ensureDirectory tree workplace path
  | succ fuel ih =>
    simp only [ensureDirectoriesFrom]
    split
    · exact prepared_ensureDirectory tree workplace path
    · next deeper =>
      have given : (splitDirectory path).1 ≠ "" := by
        intro none
        simp [none] at deeper
      have above := (ih (splitDirectory path).1).of_begins (Path.begins_splitDirectory given)
      split
      · exact above
      · split
        · exact above
        · exact above.trans (prepared_ensureDirectory _ workplace path)

end FileTree

end SchemaScript
