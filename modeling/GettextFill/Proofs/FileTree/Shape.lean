import GettextFill.Proofs.FileTree.Content

/-!
# Trees that differ in the content of files

Where a path leads, and why it leads nowhere, depends on which places are directories and which are
files, but not on what the files hold. Trees with `FileTree.SameShape` are therefore told apart by
reading files only (`SameShape.locate`, `SameShape.reach`).

`FileTree.Updated` says of two trees that at most one file was given another content. It is what
becomes of a tree when a file is replaced by way of a temporary file beside it: the temporary file
is there for a while and leaves nothing behind.
-/

namespace GettextFill

def Node.isFile : Node → Bool
  | .file _ => true
  | .directory => false

namespace FileTree

variable {t t' : FileTree} {here place goal : Place} {path : Text}

/-- Files and directories are at the same places. -/
def SameShape (t t' : FileTree) : Prop :=
  ∀ p, (t'.node? p).map Node.isFile = (t.node? p).map Node.isFile

theorem SameShape.walk (h : SameShape t t') (here : Place) (names : List Text) :
    t'.walk here names = t.walk here names := by
  induction names generalizing here with
  | nil => rfl
  | cons name names ih =>
      have hnode := h here
      rw [FileTree.walk, FileTree.walk]
      simp only [ih]
      rcases ht : t.node? here with _ | _ | _ <;> rcases ht' : t'.node? here with _ | _ | _ <;>
        simp [ht, ht', Node.isFile] at hnode ⊢

theorem SameShape.locate (h : SameShape t t') (here : Place) (path : Text) :
    t'.locate here path = t.locate here path := by
  rw [FileTree.locate, FileTree.locate]
  simp only [h.walk]

/-- A path leads to the same if the same stands at its place. -/
theorem SameShape.reach (h : SameShape t t')
    (hnode : t'.node? (Path.place here path) = t.node? (Path.place here path)) :
    t'.reach here path = t.reach here path := by
  rw [FileTree.reach, FileTree.reach, h.locate]
  cases hplace : t.locate here path with
  | error errno => rfl
  | ok place =>
      dsimp only
      rw [locate_eq_ok hplace, hnode]

/-! ### Updates of one file -/

/-- A tree later on in which at most the file at a place holds something new. -/
def Updated (place : Place) (new : Option Bytes) (t t' : FileTree) : Prop :=
  ∀ p, t'.node? p = if p = place then (new.map Node.file).or (t.node? p) else t.node? p

namespace Updated

variable {new : Option Bytes}

theorem refl (place : Place) (t : FileTree) : Updated place none t t := by
  intro p
  simp

theorem node?_ne (h : Updated place new t t') {p : Place} (hne : p ≠ place) :
    t'.node? p = t.node? p := by
  rw [h p, if_neg hne]

end Updated

end FileTree

end GettextFill
