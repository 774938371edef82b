import GettextFill.Proofs.Files.Exchange
import GettextFill.Proofs.Path.Confinement

/-!
# What comes before a file is replaced

Before a file is replaced its directory may be made and the file may be kept under another name.
Neither puts files anywhere but where backups of that file are put, which is neither its own place
nor that of a temporary file (`Writing.touches_keepPrevious`). A backup that was asked for is there
afterwards, if there is a file to be kept (`Writing.backUp_eq_ok`).
-/

namespace GettextFill

namespace FileTree

variable {t t' : FileTree} {here p : Place} {source target : Text} {part : Bytes → Bytes}

/-- A path that ends in a slash leads to a directory, so no file is read by it. -/
theorem getLast?_ne_of_readFile {content : Bytes} (h : t.readFile here source = .ok content) :
    source.getLast? ≠ some '/' := by
  intro hslash
  obtain ⟨p, rfl⟩ := List.getLast?_eq_some_iff.mp hslash
  obtain ⟨hlocate, hcontent⟩ := readFile_eq_ok_iff.mp h
  have hwalk := (refusal?_eq_none hlocate).2
  rw [Path.pieces_append_slash] at hwalk
  obtain ⟨above, -, hlast⟩ := exists_walk_of_append hwalk
  obtain ⟨hdirectory, -, hend⟩ := walk_cons_eq_ok_iff.mp hlast
  have hsame : above = Path.place here (p ++ ['/']) := Except.ok.inj hend
  rw [content?_eq_some_iff, ← hsame, hdirectory] at hcontent
  cases hcontent

/-- A file is copied to another place, or nothing happens because it is there already. -/
theorem copyFile_eq_ok (h : t.copyFile here source target part = .ok t') :
    ∃ content, t.readFile here source = .ok content ∧
      (t' = t ∧ t.readFile here target = .ok content ∨
        t.putFile here target (.between "copyfile" source target) (fun _ => part content) =
          .ok t') := by
  rw [copyFile] at h
  split at h
  · cases h
  · cases h
  · next content hreach =>
    obtain ⟨hlocate, hnode⟩ := reach_eq_ok hreach
    have hcontent := content?_of_file hnode
    refine ⟨content, readFile_eq_ok_iff.mpr ⟨hlocate, hcontent⟩, ?_⟩
    split at h
    · next hsame =>
      cases h
      rw [hlocate] at hsame
      cases htarget : t.locate here target with
      | error errno =>
          rw [htarget] at hsame
          cases hsame
      | ok goal =>
          rw [htarget] at hsame
          have hgoal : Path.place here target = Path.place here source :=
            (locate_eq_ok htarget).symm.trans (Option.some.inj hsame)
          refine .inl ⟨rfl, readFile_eq_ok_iff.mpr ⟨?_, hgoal ▸ hcontent⟩⟩
          rw [htarget, locate_eq_ok htarget]
    · exact .inr h

theorem spares_of_copyFile_ne (h : t.copyFile here source target part = .ok t')
    (hp : Path.place here target ≠ p) : Spares p t t' := by
  obtain ⟨content, -, ⟨rfl, -⟩ | hput⟩ := copyFile_eq_ok h
  · exact .refl p t'
  · exact spares_of_putFile hput hp

/-- A copy holds what was copied. -/
theorem readFile_of_copyFile (h : t.copyFile here source target = .ok t') :
    ∃ content, t.readFile here source = .ok content ∧ t'.readFile here target = .ok content := by
  obtain ⟨content, hsource, ⟨rfl, htarget⟩ | hput⟩ := copyFile_eq_ok h
  · exact ⟨content, hsource, htarget⟩
  · obtain ⟨hlocate, hnode, -, rfl⟩ := putFile_eq_ok hput
    exact ⟨content, hsource, readFile_eq_ok_iff.mpr
      ⟨locate_of_directories (keepsDirectories_set_file hnode content) hlocate,
        content?_set_file hnode content⟩⟩

end FileTree

/-! ### Names that are made from a path -/

namespace Path

theorem slash_not_mem_base (path : Text) : '/' ∉ base path := by
  intro h
  rw [base, List.mem_reverse] at h
  simpa using List.mem_takeWhile_imp h

end Path

namespace Writing

theorem isName_backupName (path : Text) (time : Nat) :
    Path.IsName (backupName path (Text.ofNat time)) := by
  have hsuffix : (".bak" : Text) <:+ backupName path (Text.ofNat time) := List.suffix_append _ _
  refine ⟨?_, Nat.lt_of_lt_of_le (by decide) hsuffix.length_le⟩
  simp [backupName, Path.slash_not_mem_base, not_mem_ofNat]

/-- Whether the last name of a place is that of a backup of the file at a path. A path that ends in a
slash is none of a file. -/
def IsBackupPlace (path : Text) (p : Place) : Prop :=
  path.getLast? ≠ some '/' ∧ ∃ time, p.getLast? = some (backupName path (Text.ofNat time))

theorem isBackupPlace_join {path : Text} (hslash : path.getLast? ≠ some '/') (here : Place)
    (directory : Text) (time : Nat) :
    IsBackupPlace path
      (Path.place here (Path.join [directory, backupName path (Text.ofNat time)])) := by
  rw [Path.place_join (isName_backupName path time)]
  exact ⟨hslash, time, List.getLast?_concat⟩

/-- A temporary file is no backup: behind the name of the file the one goes on with `tmp`, the other
with a digit. -/
theorem not_isBackupPlace_asideAt (s : Surroundings) (path : Text) (stamp : Stamp) :
    ¬ IsBackupPlace path (asideAt s path stamp) := by
  rintro ⟨hslash, time, hlast⟩
  have hname : Path.IsName (temporarySuffix stamp) :=
    ⟨slash_not_mem_temporarySuffix stamp, length_temporarySuffix stamp⟩
  rw [asideAt, Path.getLast?_place_append hname s.here hslash, Option.some_inj, backupName,
    List.append_assoc] at hlast
  have hbehind := congrArg (·[1]?) (List.append_cancel_left hlast)
  have htmp : (temporarySuffix stamp)[1]? = some 't' := rfl
  rw [htmp, List.cons_append, List.getElem?_cons_succ] at hbehind
  cases hdigits : Text.ofNat time with
  | nil =>
      rw [hdigits] at hbehind
      cases hbehind
  | cons c digits =>
      rw [hdigits] at hbehind
      have hc : 't' = c := Option.some.inj hbehind
      exact not_mem_ofNat (c := 't') rfl time (by rw [hdigits, hc]; exact List.mem_cons_self)

/-- A file is no backup of itself: the name of a backup has more points. -/
theorem not_isBackupPlace_of_lastName? {path : Text} {last : List Text × Text}
    (hlast : Path.lastName? path = some last) (hslash : path.getLast? ≠ some '/') (here : Place) :
    ¬ IsBackupPlace path (Path.place here path) := by
  rintro ⟨-, time, hplace⟩
  rw [Path.getLast?_place_of_lastName? hlast hslash] at hplace
  have hmore := count_lt_count_backupName path (Text.ofNat time)
  rw [← Option.some.inj hplace] at hmore
  exact absurd hmore (Nat.lt_irrefl _)

end Writing

/-! ### Actions that touch few files -/

/-- Later surroundings in which directories may have been made, but no files have changed except at
certain places. -/
structure Surroundings.Within (touched : Place → Prop) (s s' : Surroundings) : Prop where
  here : s'.here = s.here
  mishaps : s.mishaps = [] → s'.mishaps = []
  spares : ∀ p, ¬ touched p → FileTree.Spares p s.tree s'.tree

/-- An action that changes files at certain places at most. -/
def Touches {α : Type} (touched : Place → Prop) (x : StateM Surroundings α) : Prop :=
  ∀ s : Surroundings, s.Within touched (x s).2

namespace Touches

variable {α β : Type} {touched : Place → Prop}

theorem pure (a : α) : Touches touched (Pure.pure a : StateM Surroundings α) :=
  fun s => ⟨rfl, id, fun p _ => .refl p s.tree⟩

theorem bind {x : StateM Surroundings α} {f : α → StateM Surroundings β}
    (hx : Touches touched x) (hf : ∀ a, Touches touched (f a)) : Touches touched (x >>= f) := by
  intro s
  have hfirst := hx s
  have hrest := hf (x s).1 (x s).2
  exact ⟨hrest.here.trans hfirst.here, fun h => hrest.mishaps (hfirst.mishaps h),
    fun p hp => (hfirst.spares p hp).trans (hrest.spares p hp)⟩

theorem now : Touches touched (Host.now : StateM Surroundings Nat) :=
  fun s => ⟨rfl, id, fun p _ => .refl p s.tree⟩

theorem probe (path : Text) : Touches touched (Host.probe path) := by
  intro s
  dsimp only [Host.probe]
  rw [Surroundings.look]
  split <;> exact ⟨rfl, Surroundings.pass_mishaps, fun p _ => .refl p s.tree⟩

theorem makeDirectories (path : Text) : Touches touched (Host.makeDirectories path) := by
  intro s
  dsimp only [Host.makeDirectories]
  split
  · exact ⟨rfl, Surroundings.pass_mishaps, fun p _ => .refl p s.tree⟩
  · exact ⟨rfl, Surroundings.pass_mishaps, fun p _ => FileTree.spares_makeDirectories p path⟩

/-- Only the place that is copied to is touched, and only if there is a file to be copied. -/
theorem copyFile {source target : Text}
    (h : source.getLast? ≠ some '/' → ∀ here, touched (Path.place here target)) :
    Touches touched (Host.copyFile source target) := by
  intro s
  obtain ⟨tree, hs, htree⟩ := Surroundings.write_cases
    (fun part t here => t.copyFile here source target part) s
  dsimp only [Host.copyFile]
  rw [hs]
  refine ⟨rfl, Surroundings.pass_mishaps, fun p hp => ?_⟩
  rcases htree with rfl | ⟨part, hcopy⟩
  · exact .refl p s.tree
  · obtain ⟨content, hread, -⟩ := FileTree.copyFile_eq_ok hcopy
    refine FileTree.spares_of_copyFile_ne hcopy ?_
    rintro rfl
    exact hp (h (FileTree.getLast?_ne_of_readFile hread) s.here)

theorem step {action : StateM Surroundings (Except OsError Unit)} (h : Touches touched action) :
    Touches touched (Writing.step action) := by
  rw [Writing.step]
  refine h.bind fun done => ?_
  split <;> exact .pure _

theorem andThen {action next : StateM Surroundings (Except Refusal Unit)}
    (h : Touches touched action) (hnext : Touches touched next) :
    Touches touched (Writing.andThen action next) := by
  rw [Writing.andThen]
  refine h.bind fun done => ?_
  split
  · exact hnext
  · exact .pure _

end Touches

namespace Writing

open Surroundings

variable {o : FileOptions} {path : Text} {s s' : Surroundings}

theorem touches_makeRoom (touched : Place → Prop) (o : FileOptions) (path : Text) :
    Touches touched (makeRoom o path) := by
  rw [makeRoom]
  split
  · exact (Touches.makeDirectories _).step
  · exact .pure _

theorem touches_backUp (o : FileOptions) (path : Text) :
    Touches (IsBackupPlace path) (backUp o path) := by
  cases hpath : o.backupPath with
  | error r =>
      rw [backUp, hpath]
      exact .pure _
  | ok directory =>
      rw [backUp_eq hpath]
      refine (Touches.makeDirectories directory).step.andThen (Touches.now.bind fun time => ?_)
      exact (Touches.copyFile fun hslash here => isBackupPlace_join hslash here directory time).step

theorem touches_keepPrevious (o : FileOptions) (path : Text) :
    Touches (IsBackupPlace path) (keepPrevious o path) := by
  rw [keepPrevious]
  split
  · refine ((Touches.probe path).bind fun _ => .pure _).bind fun isThere => ?_
    split
    · exact touches_backUp o path
    · exact .pure _
  · exact .pure _

/-! ### Directories and backups that were asked for -/

/-- Directories are made only if that is asked for, and only on the way to the directory of the
file. -/
theorem directory_of_makeRoom {p : Place}
    (h : ((makeRoom o path : StateM Surroundings _) s).2.tree.node? p = some .directory) :
    s.tree.node? p = some .directory ∨ o.makesDirectories = true ∧
      ∃ q ∈ Path.upwards (Path.directory path), Path.place s.here q = p := by
  rw [makeRoom] at h
  split at h
  · next hmakes =>
    rw [step_snd] at h
    dsimp only [Host.makeDirectories] at h
    split at h
    · exact .inl h
    · exact (FileTree.directory_of_makeDirectories h).imp_right fun hq => ⟨hmakes, hq⟩
  · exact .inl h

theorem pathExists_cases (path : Text) (s : Surroundings) :
    (pathExists path : StateM Surroundings Bool) s = (false, s.pass) ∧
        (s.mishap? = none → ∃ errno, s.tree.reach s.here path = .error errno) ∨
      (pathExists path : StateM Surroundings Bool) s = (true, s.pass) ∧
        ∃ node, s.tree.reach s.here path = .ok node := by
  rw [pathExists, bind_apply]
  dsimp only [Host.probe]
  rw [look]
  cases hmishap : s.mishap? with
  | some m => exact .inl ⟨rfl, fun h => by cases h⟩
  | none =>
      dsimp only
      rw [FileTree.probe]
      cases s.tree.reach s.here path with
      | error errno => exact .inl ⟨rfl, fun _ => ⟨errno, rfl⟩⟩
      | ok node => exact .inr ⟨rfl, node, rfl⟩

/-- A file is kept if that is asked for and the file is seen. Otherwise nothing happens to it. -/
theorem keepPrevious_cases (o : FileOptions) (path : Text) (s : Surroundings) :
    (∃ s', (keepPrevious o path : StateM Surroundings _) s = (.ok (), s') ∧ s'.tree = s.tree ∧
        (o.backsUp = true → s.mishap? = none →
          ∃ errno, s.tree.reach s.here path = .error errno)) ∨
      (keepPrevious o path : StateM Surroundings _) s =
          (backUp o path : StateM Surroundings _) s.pass ∧
        ∃ node, s.tree.reach s.here path = .ok node := by
  rw [keepPrevious]
  cases o.backsUp with
  | false => exact .inl ⟨s, rfl, rfl, fun h => by cases h⟩
  | true =>
      rw [if_pos rfl, bind_apply]
      rcases pathExists_cases path s with ⟨hexists, hnot⟩ | ⟨hexists, hnode⟩ <;> rw [hexists]
      · exact .inl ⟨s.pass, rfl, rfl, fun _ => hnot⟩
      · exact .inr ⟨rfl, hnode⟩

/-- Whatever is kept of a file, it stays what it is, and where nothing is nothing is put. -/
theorem node?_keepPrevious (o : FileOptions) (path : Text) (s : Surroundings) :
    ((keepPrevious o path : StateM Surroundings _) s).2.tree.node? (Path.place s.here path) =
      s.tree.node? (Path.place s.here path) := by
  rcases keepPrevious_cases o path s with ⟨s', hkeep, htree, -⟩ | ⟨hkeep, node, hreach⟩ <;>
    rw [hkeep]
  · rw [htree]
  · have hkeeps := sparing_backUp (o := o) s.pass (.refl path s.pass)
    refine hkeeps.tree.node?_eq ?_
    have hnode : s.pass.tree.node? (Path.place s.pass.here path) = some node :=
      (FileTree.reach_eq_ok hreach).2
    simp [hnode]

/-- A backup that was made holds what the file holds. -/
theorem backUp_eq_ok (h : (backUp o path : StateM Surroundings _) s = (.ok (), s')) :
    ∃ directory time old, o.backupPath = .ok directory ∧
      s.tree.content? (Path.place s.here path) = some old ∧
      s'.tree.readFile s'.here
        (Path.join [directory, backupName path (Text.ofNat time)]) = .ok old := by
  cases hpath : o.backupPath with
  | error r =>
      rw [backUp, hpath] at h
      cases h
  | ok directory =>
      rw [backUp_eq hpath] at h
      rcases andThen_cases _ _ s with ⟨r, s₁, -, hdone⟩ | ⟨s₁, hdirectory, hrest⟩
      · rw [hdone] at h
        cases h
      rw [hrest] at h
      have hmade : Touches (fun _ => False)
          (step (Host.makeDirectories directory) : StateM Surroundings _) :=
        (Touches.makeDirectories directory).step
      replace hmade := hmade s
      rw [hdirectory] at hmade
      rw [bind_apply] at h
      obtain ⟨tree, htree, rfl⟩ := write_eq_ok (step_eq_ok h)
      obtain ⟨old, hsource, htarget⟩ := FileTree.readFile_of_copyFile htree
      have hcontent := (FileTree.readFile_eq_ok_iff.mp hsource).2
      refine ⟨directory, s₁.times s₁.clock, old, rfl, ?_, htarget⟩
      rw [← (hmade.spares _ not_false).content, ← hmade.here]
      exact hcontent

end Writing

end GettextFill
