import GettextFill.Proofs.FileTree.Beside

/-!
# Directories that are made

Making a directory and those that it lies in puts directories at the places of these paths and
changes nothing else (`FileTree.directory_of_makeDirectories`). So a place where nothing stands
becomes a directory only if it is on the way, and what stands at a place that is spared stays there
(`FileTree.Spares.node?_eq`).
-/

namespace GettextFill.FileTree

variable {t t' : FileTree} {here place : Place} {path : Text}

theorem content?_eq_none_iff :
    t.content? place = none ↔ t.node? place = none ∨ t.node? place = some .directory := by
  rw [content?]
  rcases t.node? place with _ | _ | _ <;> simp

/-- Whatever stands at a place that is spared stays there. -/
theorem Spares.node?_eq (h : Spares place t t') (hnode : t.node? place ≠ none) :
    t'.node? place = t.node? place := by
  cases hold : t.node? place with
  | none => exact absurd hold hnode
  | some node =>
      cases node with
      | directory => exact h.directories place hold
      | file bytes => exact content?_eq_some_iff.mp (h.content.trans (content?_of_file hold))

/-- At a place that is spared a directory may be made, but nothing else. -/
theorem Spares.node?_cases (h : Spares place t t') :
    t'.node? place = t.node? place ∨ t.node? place = none ∧ t'.node? place = some .directory := by
  by_cases hnode : t.node? place = none
  · have hcontent := h.content.trans (content?_eq_none_iff.mpr (.inl hnode))
    rcases content?_eq_none_iff.mp hcontent with hnone | hdirectory
    · exact .inl (hnone.trans hnode.symm)
    · exact .inr ⟨hnode, hdirectory⟩
  · exact .inl (h.node?_eq hnode)

theorem makeDirectory_eq_ok (h : t.makeDirectory here path = .ok t') :
    t' = t.set (Path.place here path) .directory := by
  rw [makeDirectory] at h
  split at h
  · cases h
  · cases hlocate : t.locate here path <;> rw [hlocate] at h <;> cases h
  · next above name _ hlast =>
    obtain ⟨hnil, hself, hparent, rest, hrest, hpieces⟩ := Path.lastName?_eq_some hlast
    split at h
    · cases h
    · next directory hinto =>
      have habove : t.walk (start here path) above = .ok directory := by
        rw [walkInto] at hinto
        split at hinto
        · cases hinto
        · split at hinto <;> cases hinto
          assumption
      have hplace : Path.place here path = directory ++ [name] := by
        rw [Path.place, hpieces, List.foldl_append, ← walk_eq_ok habove, List.foldl_cons,
          Path.foldl_go_of_empty hrest]
        simp [Path.go, hnil, hself, hparent]
      split at h
      · cases h
      · split at h
        · cases h
        · cases h
          rw [hplace]

theorem directory_of_set {goal p : Place}
    (h : (t.set goal .directory).node? p = some .directory) :
    t.node? p = some .directory ∨ goal = p := by
  by_cases hp : goal = p
  · exact .inr hp
  · rw [node?_set_ne t _ hp] at h
    exact .inl h

theorem directory_of_makeAll (isWanted : Bool) (paths : List Text) {p : Place}
    (h : (t.makeAll here isWanted paths).1.node? p = some .directory) :
    t.node? p = some .directory ∨ ∃ path ∈ paths, Path.place here path = p := by
  induction paths generalizing isWanted with
  | nil => exact .inl h
  | cons path above ih =>
      have hmade {t t' : FileTree} (hmade : t.makeDirectory here path = .ok t')
          (h : t'.node? p = some .directory) : t.node? p = some .directory ∨
            ∃ path' ∈ path :: above, Path.place here path' = p := by
        rw [makeDirectory_eq_ok hmade] at h
        exact (directory_of_set h).imp_right fun hp => ⟨path, List.mem_cons_self, hp⟩
      have habove {t' : FileTree} {done : Except OsError Unit}
          (heq : t.makeAll here false above = (t', done)) (h : t'.node? p = some .directory) :
          t.node? p = some .directory ∨ ∃ path' ∈ path :: above, Path.place here path' = p := by
        refine (ih false (by rwa [heq])).imp_right ?_
        rintro ⟨path', hmem, hp⟩
        exact ⟨path', List.mem_cons_of_mem path hmem, hp⟩
      rw [makeAll] at h
      dsimp only at h
      split at h
      · next t' hdone => exact hmade hdone h
      · split at h
        · split at h
          · next t' e heq => exact habove heq h
          · next t' heq =>
            split at h
            · next t'' hdone => exact (hmade hdone h).elim (habove heq) .inr
            · split at h <;> exact habove heq h
        · split at h <;> exact .inl h

/-- A directory that was not there before is on the way to the one that was to be made. -/
theorem directory_of_makeDirectories {p : Place}
    (h : (t.makeDirectories here path).1.node? p = some .directory) :
    t.node? p = some .directory ∨ ∃ q ∈ Path.upwards path, Path.place here q = p := by
  rw [makeDirectories] at h
  split at h
  · exact .inl h
  · exact directory_of_makeAll true _ h

end GettextFill.FileTree
