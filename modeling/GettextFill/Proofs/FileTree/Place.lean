import GettextFill.FileTree

/-!
# Where paths lead

A path that a file tree does not refuse leads to a place that can be told from the path and the
working directory alone, whatever the tree (`FileTree.locate_eq_ok`). `Path.place` is this place, so
two paths can be known to be about different files while the tree around them changes.

`Path.place_append_ne` says so of a path and the same path with something behind its last name.
-/

namespace GettextFill

namespace Path

/-- The place that a single name leads to. -/
def go (here : Place) (name : Text) : Place :=
  if name = [] || name = ['.'] then here
  else if name = parent then here.dropLast
  else here ++ [name]

/-- The place that a path leads to from a working directory. -/
def place (here : Place) (path : Text) : Place :=
  (pieces path).foldl go (FileTree.start here path)

/-- A name leads nowhere further, to the directory above or to a place of that name. -/
theorem go_cases (here : Place) (name : Text) :
    go here name = here ∨ go here name = here.dropLast ∨ go here name = here ++ [name] := by
  rw [go]
  split
  · exact Or.inl rfl
  · split
    · exact Or.inr (Or.inl rfl)
    · exact Or.inr (Or.inr rfl)

theorem ne_of_length {name : Text} (h : 2 < name.length) :
    name ≠ [] ∧ name ≠ ['.'] ∧ name ≠ parent := by
  refine ⟨?_, ?_, ?_⟩ <;>
  · rintro rfl
    simp [parent] at h

theorem go_of_length {name : Text} (h : 2 < name.length) (here : Place) :
    go here name = here ++ [name] := by
  obtain ⟨hnil, hself, hparent⟩ := ne_of_length h
  simp [go, hnil, hself, hparent]

/-- Slashes lead nowhere further. -/
theorem foldl_go_of_empty {names : List Text} (h : ∀ name ∈ names, name = []) (here : Place) :
    names.foldl go here = here := by
  induction names with
  | nil => rfl
  | cons name names ih =>
      rw [List.foldl_cons, h name List.mem_cons_self]
      exact ih fun name hname => h name (List.mem_cons_of_mem _ hname)

/-- Something behind a path that is no slash is behind its last name. -/
theorem exists_pieces_append {suffix : Text} (h : '/' ∉ suffix) (path : Text) :
    ∃ above name, pieces path = above ++ [name] ∧
      pieces (path ++ suffix) = above ++ [name ++ suffix] := by
  induction path with
  | nil => exact ⟨[], [], rfl, List.splitOn_eq_singleton h⟩
  | cons c path ih =>
      obtain ⟨above, name, hpath, hsuffix⟩ := ih
      simp only [pieces, List.splitOn] at hpath hsuffix ⊢
      rw [List.cons_append, List.splitOnP_cons_eq_if_modifyHead,
        List.splitOnP_cons_eq_if_modifyHead, hpath, hsuffix]
      split
      · exact ⟨[] :: above, name, rfl, rfl⟩
      · cases above with
        | nil => exact ⟨[], c :: name, rfl, rfl⟩
        | cons first above => exact ⟨(c :: first) :: above, name, rfl, rfl⟩

theorem isAbsolute_append {suffix : Text} (h : '/' ∉ suffix) (path : Text) :
    isAbsolute (path ++ suffix) = isAbsolute path := by
  cases path with
  | cons c path => rfl
  | nil =>
      cases suffix with
      | nil => rfl
      | cons c suffix =>
          have hc : c ≠ '/' := fun hc => h (hc ▸ List.mem_cons_self)
          simp [isAbsolute, hc]

/-- A path with a longer last name leads elsewhere. -/
theorem place_append_ne {suffix : Text} (h : '/' ∉ suffix) (hlength : 2 < suffix.length)
    (here : Place) (path : Text) : place here (path ++ suffix) ≠ place here path := by
  obtain ⟨above, name, hpath, hsuffix⟩ := exists_pieces_append h path
  have hstart : FileTree.start here (path ++ suffix) = FileTree.start here path := by
    rw [FileTree.start, FileTree.start, isAbsolute_append h]
  have hlong : 2 < (name ++ suffix).length := by
    rw [List.length_append]
    omega
  rw [place, place, hstart, hpath, hsuffix, List.foldl_append, List.foldl_append,
    List.foldl_cons, List.foldl_nil, List.foldl_cons, List.foldl_nil, go_of_length hlong]
  generalize above.foldl go (FileTree.start here path) = directory
  intro heq
  -- the longer name leads below the directory, the name itself there under another name at most
  rcases go_cases directory name with hplace | hplace | hplace <;> rw [hplace] at heq
  · have := congrArg List.length heq
    simp at this
  · have := congrArg List.length heq
    simp at this
    omega
  · have hname : name ++ suffix = name := List.singleton_inj.mp (List.append_cancel_left heq)
    have := congrArg List.length hname
    rw [List.length_append] at this
    omega

end Path

namespace FileTree

/-- Whether a name can be gone by: it is short enough or stands for no place of its own. -/
def IsPassable (name : Text) : Prop :=
  name = [] ∨ name = ['.'] ∨ name = Path.parent ∨ (Utf8.encode name).length ≤ longestName

/-- A step of a walk goes from a directory by a name that can be gone by. -/
theorem walk_cons_eq_ok_iff {t : FileTree} {here place : Place} {name : Text} {rest : List Text} :
    t.walk here (name :: rest) = .ok place ↔
      t.node? here = some .directory ∧ IsPassable name ∧
        t.walk (Path.go here name) rest = .ok place := by
  rw [walk]
  cases hnode : t.node? here with
  | none => simp
  | some node =>
      cases node with
      | file content => simp
      | directory =>
          dsimp only
          rw [Path.go, IsPassable]
          split
          · next hname =>
            rw [Bool.or_eq_true, decide_eq_true_eq, decide_eq_true_eq] at hname
            simp only [true_and]
            rw [and_iff_right (hname.imp_right Or.inl)]
          · next hname =>
            simp only [Bool.or_eq_true, decide_eq_true_eq, not_or] at hname
            split
            · next hparent => simp [hparent]
            · next hparent =>
              split
              · next hlong => simp [hname.1, hname.2, hparent, Nat.not_le.mpr hlong]
              · next hlong => simp [Nat.not_lt.mp hlong]

theorem walk_eq_ok {t : FileTree} {here place : Place} {names : List Text}
    (h : t.walk here names = .ok place) : place = names.foldl Path.go here := by
  induction names generalizing here with
  | nil =>
      cases h
      rfl
  | cons name names ih => exact ih (walk_cons_eq_ok_iff.mp h).2.2

/-- The place that a path leads to depends on the path alone. -/
theorem locate_eq_ok {t : FileTree} {here place : Place} {path : Text}
    (h : t.locate here path = .ok place) : place = Path.place here path := by
  rw [locate] at h
  split at h
  · cases h
  · exact walk_eq_ok h

theorem reach_eq_ok {t : FileTree} {here : Place} {path : Text} {node : Node}
    (h : t.reach here path = .ok node) :
    t.locate here path = .ok (Path.place here path) ∧
      t.node? (Path.place here path) = some node := by
  rw [reach] at h
  cases hplace : t.locate here path with
  | error errno =>
      rw [hplace] at h
      cases h
  | ok place =>
      rw [hplace] at h
      dsimp only at h
      rw [← locate_eq_ok hplace]
      split at h
      · next found hfound =>
        cases h
        exact ⟨rfl, hfound⟩
      · cases h

/-- A way that can be gone can still be gone when no directory has been lost. -/
theorem walk_of_directories {t t' : FileTree}
    (h : ∀ p, t.node? p = some .directory → t'.node? p = some .directory) {here place : Place}
    {names : List Text} (hwalk : t.walk here names = .ok place) :
    t'.walk here names = .ok place := by
  induction names generalizing here with
  | nil => exact hwalk
  | cons name names ih =>
      obtain ⟨hnode, hname, hrest⟩ := walk_cons_eq_ok_iff.mp hwalk
      exact walk_cons_eq_ok_iff.mpr ⟨h here hnode, hname, ih hrest⟩

theorem locate_of_directories {t t' : FileTree}
    (h : ∀ p, t.node? p = some .directory → t'.node? p = some .directory) {here place : Place}
    {path : Text} (hlocate : t.locate here path = .ok place) :
    t'.locate here path = .ok place := by
  rw [locate] at hlocate ⊢
  split at hlocate
  · cases hlocate
  · next hrefusal => exact walk_of_directories h hlocate

end FileTree

end GettextFill
