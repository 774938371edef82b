import GettextFill.Proofs.FileTree.Place

/-!
# What operations on files leave alone

Every operation changes at most the place of the file that it is about, and none takes a directory
away. `FileTree.Spares` says of two trees that the second has the same file at a place and all
directories of the first; for each operation there is one lemma that gives it for all places but its
own. An operation that makes directories spares every place, and copying spares its source.

`FileTree.readFile_of_rename` is about the one operation that replaces a file: the target holds what
the source held.
-/

namespace GettextFill.FileTree

/-- The bytes of the file at a place, if there is one. -/
def content? (t : FileTree) (place : Place) : Option Bytes :=
  match t.node? place with
  | some (.file content) => some content
  | _ => none

/-- Every directory is still there. -/
def KeepsDirectories (t t' : FileTree) : Prop :=
  ∀ p, t.node? p = some .directory → t'.node? p = some .directory

/-- A tree later on that has the same file at a place, and all directories. -/
structure Spares (place : Place) (t t' : FileTree) : Prop where
  content : t'.content? place = t.content? place
  directories : t.KeepsDirectories t'

variable {t t' t'' : FileTree} {here place goal : Place} {path source target : Text}

theorem content?_of_file {bytes : Bytes} (h : t.node? place = some (.file bytes)) :
    t.content? place = some bytes := by
  rw [content?, h]

theorem content?_eq_some_iff {bytes : Bytes} :
    t.content? place = some bytes ↔ t.node? place = some (.file bytes) := by
  rw [content?]
  constructor
  · intro h
    split at h
    · next content hnode =>
      cases h
      exact hnode
    · cases h
  · intro h
    rw [h]

theorem KeepsDirectories.trans (h : t.KeepsDirectories t') (h' : t'.KeepsDirectories t'') :
    t.KeepsDirectories t'' := fun p hp => h' p (h p hp)

theorem Spares.refl (place : Place) (t : FileTree) : Spares place t t := ⟨rfl, fun _ h => h⟩

theorem Spares.trans (h : Spares place t t') (h' : Spares place t' t'') : Spares place t t'' :=
  ⟨h'.content.trans h.content, h.directories.trans h'.directories⟩

/-! ### Changes of one place -/

theorem keepsDirectories_set_file (h : t.node? goal ≠ some .directory) (bytes : Bytes) :
    t.KeepsDirectories (t.set goal (.file bytes)) := by
  intro p hp
  have hne : goal ≠ p := by
    rintro rfl
    exact h hp
  rw [node?_set_ne t _ hne, hp]

theorem node?_erase_ne_directory (h : t.node? place ≠ some .directory) (goal : Place) :
    (t.erase goal).node? place ≠ some .directory := by
  have hroot : place ≠ [] := by
    rintro rfl
    exact h rfl
  by_cases hsame : goal = place
  · rw [hsame, node?_erase_self t hroot]
    simp
  · rwa [node?_erase_ne t hsame]

theorem keepsDirectories_erase (h : t.node? goal ≠ some .directory) :
    t.KeepsDirectories (t.erase goal) := by
  intro p hp
  have hne : goal ≠ p := by
    rintro rfl
    exact h hp
  rw [node?_erase_ne t hne, hp]

theorem content?_set_ne (h : goal ≠ place) (node : Node) :
    (t.set goal node).content? place = t.content? place := by
  rw [content?, node?_set_ne t node h, content?]

theorem content?_erase_ne (h : goal ≠ place) : (t.erase goal).content? place = t.content? place := by
  rw [content?, node?_erase_ne t h, content?]

theorem content?_set_file (h : t.node? goal ≠ some .directory) (bytes : Bytes) :
    (t.set goal (.file bytes)).content? goal = some bytes := by
  have hroot : goal ≠ [] := by
    rintro rfl
    exact h rfl
  exact content?_of_file (node?_set_self t _ hroot)

/-- A directory that is made where nothing stands hides no file. -/
theorem spares_set_directory (h : t.node? goal = none) (place : Place) :
    Spares place t (t.set goal .directory) := by
  have hroot : goal ≠ [] := by
    rintro rfl
    cases h
  refine ⟨?_, fun p hp => ?_⟩
  · by_cases hplace : goal = place
    · subst hplace
      rw [content?, node?_set_self t _ hroot, content?, h]
    · exact content?_set_ne hplace _
  · have hne : goal ≠ p := by
      rintro rfl
      rw [h] at hp
      cases hp
    rw [node?_set_ne t _ hne, hp]

/-! ### Reading -/

theorem readFile_eq_ok_iff {bytes : Bytes} :
    t.readFile here path = .ok bytes ↔
      t.locate here path = .ok (Path.place here path) ∧
        t.content? (Path.place here path) = some bytes := by
  constructor
  · intro h
    rw [readFile] at h
    split at h
    · cases h
    · cases h
    · next content hreach =>
      cases h
      obtain ⟨hlocate, hnode⟩ := reach_eq_ok hreach
      exact ⟨hlocate, content?_of_file hnode⟩
  · rintro ⟨hlocate, hcontent⟩
    rw [readFile, reach, hlocate]
    dsimp only
    rw [content?_eq_some_iff.mp hcontent]

/-- A file that is spared can be read as before. -/
theorem Spares.readFile {bytes : Bytes} (h : Spares (Path.place here path) t t')
    (hread : t.readFile here path = .ok bytes) : t'.readFile here path = .ok bytes := by
  obtain ⟨hlocate, hcontent⟩ := readFile_eq_ok_iff.mp hread
  exact readFile_eq_ok_iff.mpr
    ⟨locate_of_directories h.directories hlocate, h.content.trans hcontent⟩

/-! ### Writing -/

theorem locate_of_locateFile (h : t.locateFile here path = .ok place) :
    t.locate here path = .ok place := by
  rw [locateFile] at h
  split at h
  · cases h
  · exact h
  · split at h
    · split at h <;> cases h
    · exact h

/-- A file is put where no directory stands. -/
theorem putFile_eq_ok {attempt : Attempt} {change : Bytes → Bytes}
    (h : t.putFile here path attempt change = .ok t') :
    t.locate here path = .ok (Path.place here path) ∧
      t.node? (Path.place here path) ≠ some .directory ∧
      ∃ bytes, t' = t.set (Path.place here path) (.file (change bytes)) := by
  rw [putFile] at h
  cases hplace : t.locateFile here path with
  | error errno =>
      rw [hplace] at h
      cases h
  | ok place =>
      rw [hplace] at h
      dsimp only at h
      have hlocate := locate_of_locateFile hplace
      rw [← locate_eq_ok hlocate]
      split at h
      · cases h
      · next content hnode =>
        cases h
        exact ⟨hlocate, by simp [hnode], content, rfl⟩
      · next hnode =>
        cases h
        exact ⟨hlocate, by simp [hnode], [], rfl⟩

theorem spares_of_putFile {attempt : Attempt} {change : Bytes → Bytes}
    (h : t.putFile here path attempt change = .ok t') (hplace : Path.place here path ≠ place) :
    Spares place t t' := by
  obtain ⟨-, hnode, bytes, rfl⟩ := putFile_eq_ok h
  exact ⟨content?_set_ne hplace _, keepsDirectories_set_file hnode _⟩

/-- A file that was written holds what was to be written. -/
theorem content?_of_writeFile {bytes : Bytes} (h : t.writeFile here path bytes = .ok t') :
    t'.content? (Path.place here path) = some bytes := by
  obtain ⟨-, hnode, _, rfl⟩ := putFile_eq_ok h
  exact content?_set_file hnode bytes

/-- Copying leaves the file that is copied alone, also if it is to be its own copy. -/
theorem spares_of_copyFile {part : Bytes → Bytes}
    (h : t.copyFile here source target part = .ok t') :
    Spares (Path.place here source) t t' := by
  rw [copyFile] at h
  split at h
  · cases h
  · cases h
  · next content hreach =>
    split at h
    · cases h
      exact .refl _ t
    · next hother =>
      -- at the place of the source nothing would have been copied
      refine spares_of_putFile h fun hsame => hother ?_
      rw [(putFile_eq_ok h).1, (reach_eq_ok hreach).1, hsame]

/-! ### Replacing and removing -/

theorem locateGoal_eq_ok (h : t.locateGoal here path = .ok place) :
    t.locate here path = .ok place ∧ t.node? place ≠ some .directory := by
  rw [locateGoal] at h
  split at h
  · cases h
  · cases h
  · next hlocate _ =>
    split at h
    · cases h
    · split at h
      · cases h
      · next hnode =>
        cases h
        exact ⟨hlocate, hnode⟩

/-- A file is moved over another file or to where nothing stands. -/
theorem rename_eq_ok (h : t.rename here source target = .ok t') :
    t.locate here target = .ok (Path.place here target) ∧
      t.node? (Path.place here target) ≠ some .directory ∧
      ∃ bytes, t.node? (Path.place here source) = some (.file bytes) ∧
        t' = (t.erase (Path.place here source)).set (Path.place here target) (.file bytes) := by
  rw [rename] at h
  cases hsource : t.locate here source with
  | error errno =>
      rw [hsource] at h
      cases h
  | ok place =>
      rw [hsource] at h
      dsimp only at h
      rw [← locate_eq_ok hsource]
      split at h
      · cases h
      · cases h
      · next bytes hnode =>
        cases hgoal : t.locateGoal here target with
        | error errno =>
            rw [hgoal] at h
            cases h
        | ok goal =>
            rw [hgoal] at h
            cases h
            obtain ⟨hlocate, hfree⟩ := locateGoal_eq_ok hgoal
            rw [← locate_eq_ok hlocate]
            exact ⟨hlocate, hfree, bytes, hnode, rfl⟩

/-- A file that was moved can be read where it is now. -/
theorem readFile_of_rename (h : t.rename here source target = .ok t') :
    ∃ bytes, t.content? (Path.place here source) = some bytes ∧
      t'.readFile here target = .ok bytes := by
  obtain ⟨hlocate, hfree, bytes, hnode, rfl⟩ := rename_eq_ok h
  -- the target may be the source itself, which is taken away first
  have hfree' := node?_erase_ne_directory hfree (Path.place here source)
  have herase : t.KeepsDirectories (t.erase (Path.place here source)) :=
    keepsDirectories_erase (by simp [hnode])
  have hkeep := herase.trans (keepsDirectories_set_file hfree' bytes)
  exact ⟨bytes, content?_of_file hnode, readFile_eq_ok_iff.mpr
    ⟨locate_of_directories hkeep hlocate, content?_set_file hfree' bytes⟩⟩

theorem spares_of_removeFile (h : t.removeFile here path = .ok t')
    (hplace : Path.place here path ≠ place) : Spares place t t' := by
  rw [removeFile] at h
  split at h
  · cases h
    exact .refl _ t
  · cases h
  · next goal hlocate =>
    rw [← locate_eq_ok hlocate] at hplace
    split at h
    · cases h
    · next hnode =>
      cases h
      exact ⟨content?_erase_ne hplace, keepsDirectories_erase hnode⟩

/-! ### Directories -/

theorem spares_of_makeDirectory (h : t.makeDirectory here path = .ok t') (place : Place) :
    Spares place t t' := by
  rw [makeDirectory] at h
  split at h
  · cases h
  · cases hlocate : t.locate here path with
    | error errno =>
        rw [hlocate] at h
        cases h
    | ok place =>
        rw [hlocate] at h
        cases h
  · split at h
    · cases h
    · split at h
      · cases h
      · split at h
        · cases h
        · next hnode =>
          cases h
          exact spares_set_directory hnode place

/-- Whatever becomes of the directories that are to be made, no file is touched. -/
theorem spares_makeAll (place : Place) (isWanted : Bool) (paths : List Text) :
    Spares place t (t.makeAll here isWanted paths).1 := by
  induction paths generalizing isWanted with
  | nil => exact .refl place t
  | cons path above ih =>
      rw [makeAll]
      dsimp only
      split
      · next t' hmade => exact spares_of_makeDirectory hmade place
      · split
        · have habove := ih false
          split
          · next t' e heq =>
            rwa [heq] at habove
          · next t' heq =>
            rw [heq] at habove
            split
            · next t'' hmade => exact habove.trans (spares_of_makeDirectory hmade place)
            · split <;> exact habove
        · split <;> exact .refl place t

theorem spares_makeDirectories (place : Place) (path : Text) :
    Spares place t (t.makeDirectories here path).1 := by
  rw [makeDirectories]
  split
  · exact .refl place t
  · exact spares_makeAll place true _

end GettextFill.FileTree
