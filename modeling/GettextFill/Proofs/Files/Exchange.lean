import GettextFill.Proofs.Calm
import GettextFill.Proofs.FileTree.Directories

/-!
# Exchanging a file for another

Text that is to replace a file is put at another place first, and from there over the file. Whatever
operation is broken off on the way, either the exchange is made, and then nothing is left at the
other place (`Surroundings.Exchanged`), or it is abandoned, and then no place but the other has
changed (`Surroundings.Abandoned`). What is left there when an exchange is abandoned is taken away;
it stays only if that is broken off as well, and then a warning tells of it.
-/

namespace GettextFill

namespace FileTree

variable {t t' : FileTree} {here p : Place} {path source target : Text}

/-! ### Moving and taking away -/

theorem spares_of_rename (h : t.rename here source target = .ok t')
    (hsource : Path.place here source ≠ p) (htarget : Path.place here target ≠ p) :
    Spares p t t' := by
  obtain ⟨-, hfree, bytes, hnode, rfl⟩ := rename_eq_ok h
  have herase : Spares p t (t.erase (Path.place here source)) :=
    ⟨content?_erase_ne hsource, keepsDirectories_erase (by simp [hnode])⟩
  exact herase.trans
    ⟨content?_set_ne htarget _, keepsDirectories_set_file (node?_erase_ne_directory hfree _) bytes⟩

/-- A file that was moved is no longer where it was. -/
theorem node?_of_rename (h : t.rename here source target = .ok t')
    (hne : Path.place here source ≠ Path.place here target) :
    t'.node? (Path.place here source) = none := by
  obtain ⟨-, -, bytes, hnode, rfl⟩ := rename_eq_ok h
  have hroot : Path.place here source ≠ [] := by
    intro hroot
    rw [hroot] at hnode
    cases hnode
  rw [node?_set_ne _ _ (Ne.symm hne), node?_erase_self t hroot]

/-- Only a path that ends in a name can have a file moved to its place. -/
theorem isNamed_of_rename (h : t.rename here source target = .ok t') :
    (∃ last, Path.lastName? target = some last) ∧ target.getLast? ≠ some '/' := by
  rw [rename] at h
  split at h
  · cases h
  · split at h
    · cases h
    · cases h
    · cases hgoal : t.locateGoal here target with
      | error errno =>
          rw [hgoal] at h
          cases h
      | ok goal =>
          rw [locateGoal] at hgoal
          split at hgoal
          · cases hgoal
          · cases hgoal
          · next last _ hlast =>
            split at hgoal
            · cases hgoal
            · next hslash => exact ⟨⟨last, hlast⟩, hslash⟩

/-- A path leads to the file at its place, if there is one. -/
def Finds (t : FileTree) (here : Place) (path : Text) : Prop :=
  t.content? (Path.place here path) ≠ none → t.locate here path = .ok (Path.place here path)

theorem removeFile_eq_ok (h : t.removeFile here path = .ok t') :
    t' = t ∧ t.locate here path = .error .noEntry ∨ t' = t.erase (Path.place here path) := by
  rw [removeFile] at h
  split at h
  · next hlocate =>
    cases h
    exact .inl ⟨rfl, hlocate⟩
  · cases h
  · next place hlocate =>
    split at h
    · cases h
    · cases h
      rw [locate_eq_ok hlocate]
      exact .inr rfl

/-- A file that is found is taken away. -/
theorem content?_of_removeFile (hfinds : t.Finds here path)
    (h : t.removeFile here path = .ok t') : t'.content? (Path.place here path) = none := by
  rcases removeFile_eq_ok h with ⟨rfl, hlocate⟩ | rfl
  · by_contra hcontent
    rw [hfinds hcontent] at hlocate
    cases hlocate
  · by_cases hroot : Path.place here path = []
    · rw [hroot]
      rfl
    · exact content?_eq_none_iff.mpr (.inl (node?_erase_self t hroot))

/-- What cannot be taken away is no file that is found. -/
theorem content?_of_removeFile_eq_error (hfinds : t.Finds here path) {e : OsError}
    (h : t.removeFile here path = .error e) : t.content? (Path.place here path) = none := by
  by_contra hcontent
  obtain ⟨bytes, hbytes⟩ := Option.ne_none_iff_exists'.mp hcontent
  rw [removeFile, hfinds hcontent] at h
  dsimp only at h
  rw [content?_eq_some_iff.mp hbytes, if_neg (by simp)] at h
  cases h

end FileTree

namespace Surroundings

variable {s s' s'' : Surroundings} {path : Text} {p aside : Place}

/-! ### A file that is put somewhere -/

/-- Later surroundings in which at most a file was put at the place of a path. -/
structure Puts (path : Text) (s s' : Surroundings) : Prop where
  here : s'.here = s.here
  mishaps : s.mishaps = [] → s'.mishaps = []
  tree : s'.tree = s.tree ∨ ∃ bytes, s.tree.locate s.here path = .ok (Path.place s.here path) ∧
    s.tree.node? (Path.place s.here path) ≠ some .directory ∧
    s'.tree = s.tree.set (Path.place s.here path) (.file bytes)

theorem pass_mishaps (h : s.mishaps = []) : s.pass.mishaps = [] := by
  rw [pass, h]
  rfl

theorem mishaps_ne_nil {m : Mishap} (h : s.mishap? = some m) : s.mishaps ≠ [] := by
  intro hnil
  rw [mishap?, hnil] at h
  cases h

/-- What is written is at most a part of what was to be. -/
theorem write_cases (operation : (Bytes → Bytes) → FileTree → Place → Except OsError FileTree)
    (s : Surroundings) :
    ∃ tree, (write operation s).2 = { s.pass with tree } ∧
      (tree = s.tree ∨ ∃ part, operation part s.tree s.here = .ok tree) := by
  have hchange (part : Bytes → Bytes) : ∃ tree,
      (change (operation part) s).2 = { s.pass with tree } ∧
        (tree = s.tree ∨ ∃ part, operation part s.tree s.here = .ok tree) := by
    rcases change_cases (operation part) s with ⟨e, he⟩ | ⟨tree, htree, hok⟩
    · rw [he]
      exact ⟨s.tree, rfl, .inl rfl⟩
    · rw [hok]
      exact ⟨tree, rfl, .inr ⟨part, htree⟩⟩
  rw [write]
  split
  · exact hchange id
  · exact ⟨s.tree, rfl, .inl rfl⟩
  · exact hchange _

theorem puts_writeFile (path : Text) (bytes : Bytes) (s : Surroundings) :
    s.Puts path ((Host.writeFile path bytes : StateM Surroundings _) s).2 := by
  obtain ⟨tree, hs, htree⟩ :=
    write_cases (fun part t here => t.writeFile here path (part bytes)) s
  dsimp only [Host.writeFile]
  rw [hs]
  refine ⟨rfl, pass_mishaps, htree.imp_right ?_⟩
  rintro ⟨part, hpart⟩
  obtain ⟨hlocate, hnode, old, rfl⟩ := FileTree.putFile_eq_ok hpart
  exact ⟨_, hlocate, hnode, rfl⟩

namespace Puts

theorem refl (path : Text) (s : Surroundings) : s.Puts path s := ⟨rfl, id, .inl rfl⟩

theorem node?_ne (h : s.Puts path s') (hp : Path.place s.here path ≠ p) :
    s'.tree.node? p = s.tree.node? p := by
  rcases h.tree with htree | ⟨bytes, -, -, htree⟩ <;> rw [htree]
  exact FileTree.node?_set_ne s.tree _ hp

theorem spares (h : s.Puts path s') (hp : Path.place s.here path ≠ p) :
    FileTree.Spares p s.tree s'.tree := by
  rcases h.tree with htree | ⟨bytes, -, hnode, htree⟩ <;> rw [htree]
  · exact .refl p s.tree
  · exact ⟨FileTree.content?_set_ne hp _, FileTree.keepsDirectories_set_file hnode bytes⟩

/-- A file that was put at the place of a path is found there. -/
theorem finds (h : s.Puts path s') (hfree : s.tree.content? (Path.place s.here path) = none) :
    s'.tree.Finds s'.here path := by
  intro hcontent
  rw [h.here] at hcontent ⊢
  rcases h.tree with htree | ⟨bytes, hlocate, hnode, htree⟩
  · rw [htree] at hcontent
    exact absurd hfree hcontent
  · rw [htree]
    exact FileTree.locate_of_directories (FileTree.keepsDirectories_set_file hnode bytes) hlocate

end Puts

/-! ### How an exchange ends -/

/-- A warning tells of a file that could not be taken away. -/
def TellsOf (s : Surroundings) (p : Place) : Prop :=
  ∃ temporary reason : Text, Path.place s.here temporary = p ∧
    (Channel.warn, [Document.text (("Could not remove temporary file " : Text) ++ temporary ++ ": " ++
      reason)]) ∈ s.said

/-- A file at another place has taken the place of the one that a path leads to. -/
structure Exchanged (path : Text) (aside : Place) (s s' : Surroundings) : Prop where
  here : s'.here = s.here
  locate : s.tree.locate s.here path = .ok (Path.place s.here path)
  isNamed : (∃ last, Path.lastName? path = some last) ∧ path.getLast? ≠ some '/'
  nothingAside : s'.tree.node? aside = none
  spares : ∀ p, p ≠ Path.place s.here path → p ≠ aside → FileTree.Spares p s.tree s'.tree

/-- An exchange was given up. At the other place no file is left that was not there before, unless
taking it away was broken off. -/
structure Abandoned (aside : Place) (s s' : Surroundings) : Prop where
  here : s'.here = s.here
  others : ∀ p, p ≠ aside → s'.tree.node? p = s.tree.node? p
  nothingAside : s.tree.content? aside = none →
    s'.tree.content? aside = none ∨ s.mishaps ≠ [] ∧ s'.TellsOf aside

end Surroundings

namespace Writing

open Surroundings

variable {o : FileOptions} {path temporary content : Text} {s s' : Surroundings}

theorem andThen_cases (action next : StateM Surroundings (Except Refusal Unit)) (s : Surroundings) :
    (∃ r s', action s = (.error r, s') ∧ andThen action next s = (.error r, s')) ∨
      ∃ s', action s = (.ok (), s') ∧ andThen action next s = next s' := by
  rcases haction : action s with ⟨r | _, s'⟩
  · exact .inl ⟨r, s', rfl, andThen_of_error haction⟩
  · exact .inr ⟨s', rfl, andThen_of_ok haction⟩

theorem step_snd (action : StateM Surroundings (Except OsError Unit)) (s : Surroundings) :
    (step action s).2 = (action s).2 := by
  rw [step, bind_apply]
  rcases action s with ⟨_ | _, s'⟩ <;> rfl

theorem puts_direct (o : FileOptions) (path content : Text) (s : Surroundings) :
    s.Puts path ((direct o path content : StateM Surroundings _) s).2 := by
  rw [direct]
  cases o.encode content with
  | error r => exact .refl path s
  | ok bytes =>
      dsimp only
      rw [step_snd]
      exact puts_writeFile path bytes s

/-- A file that is found is taken away, or it is told that this was broken off. Nothing else
changes. -/
theorem discard_cases (temporary : Text) (s : Surroundings) :
    ∃ s', (discard temporary : StateM Surroundings Unit) s = ((), s') ∧ s'.here = s.here ∧
      (∀ p, p ≠ Path.place s.here temporary → s'.tree.node? p = s.tree.node? p) ∧
      (s.tree.Finds s.here temporary →
        s'.tree.content? (Path.place s.here temporary) = none ∨
          s.mishaps ≠ [] ∧ s'.TellsOf (Path.place s.here temporary)) := by
  rw [discard, bind_apply]
  dsimp only [Host.removeFile]
  rw [attempt]
  cases hmishap : s.mishap? with
  | some m =>
      exact ⟨_, rfl, rfl, fun _ _ => rfl, fun _ => .inr ⟨mishaps_ne_nil hmishap, temporary,
        m.error.message, rfl, List.mem_append_right _ List.mem_cons_self⟩⟩
  | none =>
      dsimp only
      rw [change]
      cases hremove : s.tree.removeFile s.here temporary with
      | error e =>
          exact ⟨_, rfl, rfl, fun _ _ => rfl, fun hfinds =>
            .inl (FileTree.content?_of_removeFile_eq_error hfinds hremove)⟩
      | ok tree =>
          refine ⟨_, rfl, rfl, fun p hp => ?_, fun hfinds =>
            .inl (FileTree.content?_of_removeFile hfinds hremove)⟩
          rcases FileTree.removeFile_eq_ok hremove with ⟨rfl, -⟩ | rfl
          · rfl
          · exact FileTree.node?_erase_ne _ (Ne.symm hp)

/-- A file is put aside and moved over the one at a path, or an error is told before that. -/
theorem exchange_cases (hne : Path.place s.here temporary ≠ Path.place s.here path)
    (o : FileOptions) (content : Text) :
    (∃ r s', (andThen (direct o temporary content) (step (Host.rename temporary path)) :
        StateM Surroundings _) s = (.error r, s') ∧ s.Puts temporary s') ∨
      ∃ s', (andThen (direct o temporary content) (step (Host.rename temporary path)) :
        StateM Surroundings _) s = (.ok (), s') ∧
          s.Exchanged path (Path.place s.here temporary) s' := by
  have hputs := puts_direct o temporary content s
  rcases andThen_cases (direct o temporary content) (step (Host.rename temporary path)) s with
    ⟨r, s', hdirect, hdone⟩ | ⟨s', hdirect, hrest⟩ <;> rw [hdirect] at hputs
  · exact .inl ⟨r, s', hdone, hputs⟩
  rw [hrest]
  rcases rename_cases temporary path s' with ⟨r, hr⟩ | ⟨tree, htree, hok⟩
  · exact .inl ⟨r, s'.pass, hr, hputs.here, fun h => pass_mishaps (hputs.mishaps h), hputs.tree⟩
  · right
    refine ⟨_, hok, ?_⟩
    rw [hputs.here] at htree
    obtain ⟨hlocate, -, bytes, hnode, -⟩ := FileTree.rename_eq_ok htree
    have hdirectories : s'.tree.KeepsDirectories s.tree := by
      intro p hp
      have hother : Path.place s.here temporary ≠ p := by
        rintro rfl
        rw [hnode] at hp
        cases hp
      rwa [← hputs.node?_ne hother]
    exact
      { here := hputs.here
        locate := FileTree.locate_of_directories hdirectories hlocate
        isNamed := FileTree.isNamed_of_rename htree
        nothingAside := FileTree.node?_of_rename htree hne
        spares := fun p hp haside => (hputs.spares (Ne.symm haside)).trans
          (FileTree.spares_of_rename htree (Ne.symm haside) (Ne.symm hp)) }

/-- Text that replaces a file by way of a temporary one is exchanged for it, or the exchange is
abandoned. -/
theorem atomically_cases (o : FileOptions) (path content : Text) (s : Surroundings) :
    (∃ r s', (atomically o path content : StateM Surroundings _) s = (.error r, s') ∧
        s.Abandoned (asideAt s path (s.stampAt s.clock)) s') ∨
      ∃ s', (atomically o path content : StateM Surroundings _) s = (.ok (), s') ∧
        s.Exchanged path (asideAt s path (s.stampAt s.clock)) s' := by
  have hne := Path.place_append_ne (slash_not_mem_temporarySuffix (s.stampAt s.clock))
    (length_temporarySuffix (s.stampAt s.clock)) s.here path
  rw [atomically, bind_apply, temporaryPath_apply]
  dsimp only
  rw [bind_apply]
  have hcases := exchange_cases (s := { s with clock := s.clock + 1 }) hne o content
  rcases hcases with ⟨r, s', hexchange, hputs⟩ | ⟨s', hexchange, hexchanged⟩ <;> rw [hexchange]
  · left
    obtain ⟨s'', hdiscard, hhere, hothers, haside⟩ :=
      discard_cases (path ++ temporarySuffix (s.stampAt s.clock)) s'
    refine ⟨r, s'', ?_, hhere.trans hputs.here, fun p hp => ?_, fun hfree => ?_⟩
    · dsimp only
      rw [bind_apply, hdiscard]
      rfl
    · rw [hputs.here] at hothers
      exact (hothers p hp).trans (hputs.node?_ne (Ne.symm hp))
    · rw [hputs.here] at haside
      have hfinds := hputs.finds hfree
      rw [hputs.here] at hfinds
      exact (haside hfinds).imp_right fun h => ⟨fun hnil => h.1 (hputs.mishaps hnil), h.2⟩
  · exact .inr ⟨s', rfl, hexchanged.here, hexchanged.locate, hexchanged.isNamed,
      hexchanged.nothingAside, hexchanged.spares⟩

end Writing

end GettextFill
