import GettextFill.Proofs.Files.Backup
import GettextFill.Proofs.Run.Language

/-!
# All of a text or nothing

A text that is to replace a file is written as a whole or not at all. If it is written, the file
holds all of it, no temporary file is left and the backup that was asked for holds what the file
held (`Surroundings.Written`). If it is refused, the file is what it was and no temporary file is
left either (`Surroundings.Unwritten`). There is one way for something else to stand there then:
a path that leads through the place of its own file has a directory made there, if directories are
to be made.

This is `writeText_allOrNothing`, for all paths, trees and options that are usual, whatever nonces
are drawn and whatever operation is broken off. A file that is not seen because looking for it was
broken off is replaced without a backup, and this is the only way to lose one. A temporary file stays
only if taking it away was broken off, and that is told then.
-/

namespace GettextFill

open Writing

namespace Surroundings

/-- Directories are to be made on a path that leads through the place of its own file. -/
def LeadsThrough (s : Surroundings) (o : FileOptions) (path : Text) : Prop :=
  o.makesDirectories = true ∧
    ∃ q ∈ Path.upwards (Path.directory path), Path.place s.here q = Path.place s.here path

/-- At the place of a path stands what stood there, or a directory if that was nothing and the path
leads through it. -/
def KeepsTarget (o : FileOptions) (path : Text) (s s' : Surroundings) : Prop :=
  s'.tree.node? (Path.place s.here path) = s.tree.node? (Path.place s.here path) ∨
    s.tree.node? (Path.place s.here path) = none ∧
      s'.tree.node? (Path.place s.here path) = some .directory ∧ s.LeadsThrough o path

/-- The mishap of the operation that looks for the file that is to be replaced. A directory may be
made before that. -/
def mishapOfSearch? (s : Surroundings) (o : FileOptions) : Option Mishap :=
  s.mishaps[if o.makesDirectories then 1 else 0]?.join

/-- A text was written to a path as a whole. -/
structure Written (o : FileOptions) (path content : Text) (s s' : Surroundings) : Prop where
  here : s'.here = s.here
  content : s'.tree.readFile s'.here path = .ok (Utf8.encode content)
  temporary : ∀ stamp, s.tree.content? (asideAt s path stamp) = none →
    s'.tree.content? (asideAt s path stamp) = none
  backup : o.backsUp = true → s.mishapOfSearch? o = none →
    ∀ node, s.tree.node? (Path.place s.here path) = some node →
      ∃ old directory time, node = .file old ∧ o.backupPath = .ok directory ∧
        s'.tree.readFile s'.here
          (Path.join [directory, backupName path (Text.ofNat time)]) = .ok old

/-- A text was not written to a path. -/
structure Unwritten (o : FileOptions) (path : Text) (s s' : Surroundings) : Prop where
  here : s'.here = s.here
  target : s.KeepsTarget o path s'
  temporary : ∀ stamp, s.tree.content? (asideAt s path stamp) = none →
    s'.tree.content? (asideAt s path stamp) = none ∨
      s.mishaps ≠ [] ∧ s'.TellsOf (asideAt s path stamp)

/-- Everything is ready for a file to be replaced, or was to be made so. -/
structure Prepared (o : FileOptions) (path : Text) (s s' : Surroundings) : Prop where
  within : s.Within (IsBackupPlace path) s'
  target : s.KeepsTarget o path s'

variable {o : FileOptions} {path content : Text} {s s₁ s' : Surroundings}

namespace Prepared

theorem makeRoom (o : FileOptions) (path : Text) (s : Surroundings) :
    s.Prepared o path ((Writing.makeRoom o path : StateM Surroundings _) s).2 := by
  have hwithin := touches_makeRoom (IsBackupPlace path) o path s
  refine ⟨hwithin, ?_⟩
  -- no file is touched at all, so the target is spared also if it has the name of a backup
  have hspares := (touches_makeRoom (fun _ => False) o path s).spares (Path.place s.here path)
    not_false
  refine hspares.node?_cases.imp_right fun ⟨hnone, hdirectory⟩ => ?_
  refine ⟨hnone, hdirectory, (directory_of_makeRoom hdirectory).resolve_left ?_⟩
  simp [hnone]

theorem keepPrevious (h : s.Prepared o path s₁) :
    s.Prepared o path ((Writing.keepPrevious o path : StateM Surroundings _) s₁).2 where
  within := by
    have hwithin := touches_keepPrevious o path s₁
    exact ⟨hwithin.here.trans h.within.here, fun hs => hwithin.mishaps (h.within.mishaps hs),
      fun p hp => (h.within.spares p hp).trans (hwithin.spares p hp)⟩
  target := by
    have hnode := node?_keepPrevious o path s₁
    rw [h.within.here] at hnode
    rw [KeepsTarget, hnode]
    exact h.target

theorem asideAt_eq (h : s.Prepared o path s₁) (stamp : Stamp) :
    asideAt s₁ path stamp = asideAt s path stamp := by
  rw [asideAt, asideAt, h.within.here]

/-- Nothing that comes before is put where a temporary file is to be. -/
theorem content?_asideAt (h : s.Prepared o path s₁) {stamp : Stamp}
    (hfree : s.tree.content? (asideAt s path stamp) = none) :
    s₁.tree.content? (asideAt s path stamp) = none := by
  rw [← hfree]
  exact (h.within.spares _ (not_isBackupPlace_asideAt s path stamp)).content

theorem unwritten (h : s.Prepared o path s') : s.Unwritten o path s' where
  here := h.within.here
  target := h.target
  temporary _ hfree := .inl (h.content?_asideAt hfree)

theorem unwritten_of_abandoned (h : s.Prepared o path s₁) {used : Stamp}
    (habandoned : s₁.Abandoned (asideAt s₁ path used) s') : s.Unwritten o path s' where
  here := habandoned.here.trans h.within.here
  target := by
    have hne := Path.place_append_ne (slash_not_mem_temporarySuffix used)
      (length_temporarySuffix used) s.here path
    rw [h.asideAt_eq] at habandoned
    rw [KeepsTarget, habandoned.others _ (Ne.symm hne)]
    exact h.target
  temporary stamp hfree := by
    have hbefore := h.content?_asideAt hfree
    rw [h.asideAt_eq] at habandoned
    by_cases hused : asideAt s path stamp = asideAt s path used
    · rw [hused] at hbefore ⊢
      exact (habandoned.nothingAside hbefore).imp_right fun ⟨hmishaps, htold⟩ =>
        ⟨fun hnil => hmishaps (h.within.mishaps hnil), htold⟩
    · left
      rw [← hbefore, FileTree.content?, FileTree.content?, habandoned.others _ hused]

theorem temporary_of_exchanged (h : s.Prepared o path s₁) {used : Stamp}
    (hexchanged : s₁.Exchanged path (asideAt s₁ path used) s') (stamp : Stamp)
    (hfree : s.tree.content? (asideAt s path stamp) = none) :
    s'.tree.content? (asideAt s path stamp) = none := by
  rw [h.asideAt_eq] at hexchanged
  by_cases hused : asideAt s path stamp = asideAt s path used
  · rw [hused]
    exact FileTree.content?_eq_none_iff.mpr (.inl hexchanged.nothingAside)
  · have hne : asideAt s path stamp ≠ Path.place s₁.here path := by
      rw [h.within.here]
      exact Path.place_append_ne (slash_not_mem_temporarySuffix stamp)
        (length_temporarySuffix stamp) s.here path
    exact (hexchanged.spares _ hne hused).content.trans (h.content?_asideAt hfree)

end Prepared

/-- A backup that was made before an exchange is there after it. -/
theorem Exchanged.readFile_backup {used : Stamp} {time : Nat} {directory : Text} {old : Bytes}
    (h : s.Exchanged path (asideAt s path used) s')
    (hread : s.tree.readFile s.here
      (Path.join [directory, backupName path (Text.ofNat time)]) = .ok old) :
    s'.tree.readFile s'.here
      (Path.join [directory, backupName path (Text.ofNat time)]) = .ok old := by
  obtain ⟨⟨last, hlast⟩, hslash⟩ := h.isNamed
  have hbackup := isBackupPlace_join hslash s.here directory time
  have htarget : Path.place s.here (Path.join [directory, backupName path (Text.ofNat time)]) ≠
      Path.place s.here path := by
    intro hsame
    rw [hsame] at hbackup
    exact not_isBackupPlace_of_lastName? hlast hslash s.here hbackup
  have haside : Path.place s.here (Path.join [directory, backupName path (Text.ofNat time)]) ≠
      asideAt s path used := by
    intro hsame
    rw [hsame] at hbackup
    exact not_isBackupPlace_asideAt s path used hbackup
  rw [h.here]
  exact (h.spares _ htarget haside).readFile hread

/-- A file that is replaced was kept before that, if that is asked for. -/
theorem Exchanged.backup {s₂ : Surroundings} {used : Stamp}
    (hkeep : (keepPrevious o path : StateM Surroundings _) s₁ = (.ok (), s₂))
    (hexchanged : s₂.Exchanged path (asideAt s₂ path used) s') (hbacksUp : o.backsUp = true)
    (hsearch : s₁.mishap? = none) {node : Node}
    (hnode : s₁.tree.node? (Path.place s₁.here path) = some node) :
    ∃ old directory time, node = .file old ∧ o.backupPath = .ok directory ∧
      s'.tree.readFile s'.here
        (Path.join [directory, backupName path (Text.ofNat time)]) = .ok old := by
  have hhere := (touches_keepPrevious o path s₁).here
  rcases keepPrevious_cases o path s₁ with ⟨s₃, hkept, htree, hnot⟩ | ⟨hkept, -⟩
  · -- what was not seen cannot have been replaced
    rw [hkeep] at hkept hhere
    cases hkept
    obtain ⟨errno, herror⟩ := hnot hbacksUp hsearch
    have hlocate := hexchanged.locate
    rw [htree, hhere] at hlocate
    rw [FileTree.reach_of_locate hlocate hnode] at herror
    cases herror
  · rw [hkeep] at hkept
    obtain ⟨directory, time, old, hpath, hcontent, hread⟩ := backUp_eq_ok hkept.symm
    have hold : node = .file old := by
      have hfile : s₁.tree.node? (Path.place s₁.here path) = some (.file old) :=
        FileTree.content?_eq_some_iff.mp hcontent
      rw [hnode] at hfile
      exact Option.some.inj hfile
    exact ⟨old, directory, time, hold, hpath, hexchanged.readFile_backup hread⟩

end Surroundings

namespace Writing

variable {o : FileOptions}

theorem mishap?_makeRoom (o : FileOptions) (path : Text) (s : Surroundings) :
    ((makeRoom o path : StateM Surroundings _) s).2.mishap? = s.mishapOfSearch? o := by
  rw [makeRoom, Surroundings.mishapOfSearch?]
  cases o.makesDirectories with
  | false => rw [Surroundings.mishap?, List.head?_eq_getElem?]; rfl
  | true =>
      rw [if_pos rfl, if_pos rfl, step_snd]
      dsimp only [Host.makeDirectories]
      split
      · rw [Surroundings.mishap?, Surroundings.pass, List.head?_tail]
      · rw [Surroundings.mishap?, Surroundings.pass, List.head?_tail]

/-- Everything goes well up to the exchange and in it, or the text is not written. -/
theorem replace_cases (hatomic : o.atomic = true) (path content : Text) (s : Surroundings) :
    (∃ r s', (replace o path content : StateM Surroundings _) s = (.error r, s') ∧
        s.Unwritten o path s') ∨
      ∃ s₁ s₂ s', (makeRoom o path : StateM Surroundings _) s = (.ok (), s₁) ∧
        (keepPrevious o path : StateM Surroundings _) s₁ = (.ok (), s₂) ∧
        (replace o path content : StateM Surroundings _) s = (.ok (), s') ∧
        s₂.Exchanged path (asideAt s₂ path (s₂.stampAt s₂.clock)) s' := by
  have hroom := Surroundings.Prepared.makeRoom o path s
  rw [replace, if_pos hatomic]
  rcases andThen_cases (makeRoom o path) (andThen (keepPrevious o path) (atomically o path content))
    s with ⟨r, s', hr, hdone⟩ | ⟨s₁, hs₁, hrest⟩
  · rw [hr] at hroom
    exact .inl ⟨r, s', hdone, hroom.unwritten⟩
  rw [hs₁] at hroom
  have hprevious := hroom.keepPrevious
  rw [hrest]
  rcases andThen_cases (keepPrevious o path) (atomically o path content) s₁ with
    ⟨r, s', hr, hdone⟩ | ⟨s₂, hs₂, hexchange⟩
  · rw [hr] at hprevious
    exact .inl ⟨r, s', hdone, hprevious.unwritten⟩
  rw [hs₂] at hprevious
  rw [hexchange]
  rcases atomically_cases o path content s₂ with
    ⟨r, s', hdone, habandoned⟩ | ⟨s', hdone, hexchanged⟩
  · exact .inl ⟨r, s', hdone, hprevious.unwritten_of_abandoned habandoned⟩
  · exact .inr ⟨s₁, s₂, s', hs₁, hs₂, hdone, hexchanged⟩

end Writing

/-- A text is written as a whole, or it is refused as one that cannot be written and the file is
what it was. -/
theorem writeText_allOrNothing {s : Surroundings} {options : Option Document}
    (husual : FileOptions.IsUsual (.of (Settings.overlay s.session.files options)))
    (path content : Text) :
    match (writeText path content options : StateM Surroundings _) s with
    | (.ok (), s') => s.Written (.of (Settings.overlay s.session.files options)) path content s'
    | (.error f, s') => f.code = "ERR_CATALOG_WRITE_FAILED" ∧
        s.Unwritten (.of (Settings.overlay s.session.files options)) path s' := by
  generalize ho : FileOptions.of (Settings.overlay s.session.files options) = o at husual ⊢
  have heffective : (effectiveOptions options : StateM Surroundings _) s = (o, s) := by
    rw [← ho]
    rfl
  rw [writeText, bind_apply, heffective]
  dsimp only
  rw [bind_apply]
  have hreplacing : Replacing path s o content (replace o path content) :=
    replacing_replace husual.atomic
  have hreplaced := hreplacing s (.refl path s)
  rcases replace_cases husual.atomic path content s with
    ⟨r, s', hdone, hunwritten⟩ | ⟨s₁, s₂, s', hs₁, hs₂, hdone, hexchanged⟩ <;> rw [hdone]
  · exact ⟨rfl, hunwritten⟩
  · rw [hdone] at hreplaced
    have hroom := Surroundings.Prepared.makeRoom o path s
    rw [hs₁] at hroom
    have hprevious := hroom.keepPrevious
    rw [hs₂] at hprevious
    refine
      { here := hreplaced.here
        content := ?_
        temporary := hprevious.temporary_of_exchanged hexchanged
        backup := fun hbacksUp hsearch node hnode => ?_ }
    · obtain ⟨bytes, hbytes, hread⟩ := hreplaced.content
      rw [husual.encode] at hbytes
      cases hbytes
      exact hread
    · have hstill : s₁.tree.node? (Path.place s₁.here path) = some node := by
        rw [hroom.within.here]
        rcases hroom.target with hsame | ⟨hnone, -⟩
        · exact hsame.trans hnode
        · rw [hnone] at hnode
          cases hnode
      have hundisturbed : s₁.mishap? = none := by
        rw [← hsearch, ← mishap?_makeRoom o path s, hs₁]
      exact hexchanged.backup hs₂ hbacksUp hundisturbed hstill

/-- A text is written over a file that is kept. -/
theorem writeText_allOrNothing_backedUp :
    let options : Option Document := some (.object [("backupFiles", .bool true)])
    let s : Surroundings :=
      { tree :=
          { nodes := [(["po"], .directory), (["po", "fr.po"], .file (Utf8.encode "old"))] }
        here := [] }
    let o : FileOptions := .of (Settings.overlay s.session.files options)
    let x := (writeText "po/fr.po" "new" options : StateM Surroundings _) s
    o.IsUsual ∧ x.1.isOk = true ∧ s.Written o "po/fr.po" "new" x.2 ∧
      x.2.tree.content? ["backups", "fr.po.0.bak"] = some (Utf8.encode "old") := by
  intro options s o x
  have husual : o.IsUsual := ⟨rfl, rfl⟩
  have hok : x.1.isOk = true := by decide +kernel
  have hwritten := @writeText_allOrNothing s options husual "po/fr.po" "new"
  refine ⟨husual, hok, ?_, by decide +kernel⟩
  rcases hx : x with ⟨_ | _, s'⟩
  · rw [hx] at hok
    cases hok
  · dsimp only [x] at hx
    rw [hx] at hwritten
    exact hwritten

/-- A file that the path to it leads through is made a directory, and the text is refused. -/
theorem writeText_leadsThrough :
    let options : Option Document := some (.object [("createMissingDirs", .bool true)])
    let s : Surroundings := { tree := {}, here := [] }
    let o : FileOptions := .of (Settings.overlay s.session.files options)
    let x := (writeText "x/../x" "n" options : StateM Surroundings _) s
    o.IsUsual ∧ Path.base "x/../x" = "x" ∧ x.1.isOk = false ∧
      s.tree.node? (Path.place s.here "x/../x") = none ∧
      x.2.tree.node? (Path.place s.here "x/../x") = some .directory := by
  refine ⟨⟨rfl, rfl⟩, ?_, ?_, ?_, ?_⟩ <;> decide +kernel

end GettextFill
