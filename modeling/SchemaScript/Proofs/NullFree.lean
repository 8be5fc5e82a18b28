import SchemaScript.Generation

/-!
Paths without null characters. A null character is the one thing for which a path is refused
without regard to the tree, and no step of writing a file brings one in.
-/

namespace SchemaScript

def NullFree (text : String) : Prop := '\x00' ∉ text.toList

instance (text : String) : Decidable (NullFree text) :=
  inferInstanceAs (Decidable (_ ∉ _))

theorem NullFree.of_subset {part whole : String} (h : NullFree whole)
    (inside : part.toList ⊆ whole.toList) : NullFree part := fun found => h (inside found)

namespace Path

theorem withoutFinalSlashes_subset (cs : List Char) : withoutFinalSlashes cs ⊆ cs := by
  unfold withoutFinalSlashes
  split
  · exact List.Subset.refl cs
  · intro c h
    exact List.mem_reverse.1 ((List.dropWhile_sublist _).subset (List.mem_reverse.1 h))

theorem split_head_subset (path : String) : (split path).1.toList ⊆ path.toList := by
  intro c h
  rw [split, String.toList_ofList] at h
  have kept := withoutFinalSlashes_subset _ h
  exact List.mem_reverse.1 ((List.dropWhile_sublist _).subset (List.mem_reverse.1 kept))

theorem join_nullFree {base path : String} (hb : NullFree base) (hp : NullFree path) :
    NullFree (join base path) := by
  unfold join
  split
  · exact hp
  · split
    · simp_all [NullFree]
    · simp_all [NullFree]

end Path

namespace FileTree

variable {tree : FileTree} {workplace : Location} {path : String} {fault : PathFault}

theorem checkPath_ne_nullCharacter (plain : NullFree path) (h : checkPath path = .error fault) :
    fault ≠ .nullCharacter := by
  unfold checkPath at h
  split at h
  · next found => exact absurd (by simpa using found) plain
  · split at h
    · cases h
      exact nofun
    · split at h <;> cases h
      exact nofun

theorem approach_ne_nullCharacter (plain : NullFree path)
    (h : tree.approach workplace path = .error fault) : fault ≠ .nullCharacter := by
  unfold approach at h
  cases checked : checkPath path with
  | error first =>
    simp only [checked, bind, Except.bind] at h
    cases h
    exact checkPath_ne_nullCharacter plain checked
  | ok _ =>
    simp only [checked, bind, Except.bind, pure, Except.pure] at h
    split at h
    · cases h
    · next last _ =>
      split at h
      · next above =>
        cases h
        unfold Except.mapError at above
        split at above <;> cases above
        exact nofun
      · split at h <;> cases h

theorem makeDirectory_ne_nullCharacter (plain : NullFree path)
    (h : tree.makeDirectory workplace path = .error fault) : fault ≠ .nullCharacter := by
  unfold makeDirectory at h
  cases approached : tree.approach workplace path with
  | error first =>
    simp only [approached, bind, Except.bind] at h
    cases h
    exact approach_ne_nullCharacter plain approached
  | ok last =>
    simp only [approached, bind, Except.bind, pure, Except.pure, throw, throwThe,
      MonadExceptOf.throw] at h
    grind

theorem writeFile_ne_nullCharacter {content : ByteArray} (plain : NullFree path)
    (h : tree.writeFile workplace path content = .error fault) : fault ≠ .nullCharacter := by
  unfold writeFile at h
  cases approached : tree.approach workplace path with
  | error first =>
    simp only [approached, bind, Except.bind] at h
    cases h
    exact approach_ne_nullCharacter plain approached
  | ok last =>
    simp only [approached, bind, Except.bind, pure, Except.pure, throw, throwThe,
      MonadExceptOf.throw] at h
    grind

theorem ensureDirectory_ne_nullCharacter (plain : NullFree path)
    (h : (tree.ensureDirectory workplace path).fault? = some fault) : fault ≠ .nullCharacter := by
  unfold ensureDirectory at h
  cases made : tree.makeDirectory workplace path with
  | ok next => simp [made] at h
  | error first =>
    simp only [made] at h
    split at h
    · cases h
    · cases h
      exact makeDirectory_ne_nullCharacter plain made

theorem splitDirectory_head_subset (path : String) :
    (splitDirectory path).1.toList ⊆ path.toList := by
  unfold splitDirectory
  simp only
  split
  · exact List.Subset.trans (Path.split_head_subset _) (Path.split_head_subset path)
  · exact Path.split_head_subset path

theorem ensureDirectoriesFrom_ne_nullCharacter {fuel : Nat} (plain : NullFree path)
    (h : (ensureDirectoriesFrom workplace fuel tree path).fault? = some fault) :
    fault ≠ .nullCharacter := by
  induction fuel generalizing path fault with
  | zero => exact ensureDirectory_ne_nullCharacter plain h
  | succ fuel ih =>
    have head := plain.of_subset (splitDirectory_head_subset path)
    simp only [ensureDirectoriesFrom] at h
    split at h
    · exact ensureDirectory_ne_nullCharacter plain h
    · split at h
      · exact ih head h
      · split at h
        · cases h
        · exact ensureDirectory_ne_nullCharacter plain h

/-- Writing below a path without null characters never meets one. -/
theorem writeBelow_ne_nullCharacter {content : ByteArray} (plain : NullFree path)
    (h : (tree.writeBelow workplace path content).fault? = some fault) :
    fault ≠ .nullCharacter := by
  have parent : NullFree (Path.parent path) := plain.of_subset (Path.split_head_subset path)
  simp only [writeBelow] at h
  generalize above : (if (Path.parent path).isEmpty = true then (⟨tree, none⟩ : Change)
    else tree.ensureDirectories workplace (Path.parent path)) = made at h
  split at h
  · split at above
    · subst above
      cases h
    · subst above
      exact ensureDirectoriesFrom_ne_nullCharacter parent h
  · split at h
    · cases h
    · next written =>
      cases h
      exact writeFile_ne_nullCharacter plain written

end FileTree

end SchemaScript
