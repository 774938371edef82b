import GettextFill.Proofs.FileTree.Beside
import GettextFill.Proofs.Files

/-!
# Calm surroundings

Surroundings are calm if operations on files come to what the tree says, and if files are replaced
at once, without a backup and without messages that are kept. Then all that an action does can be
told exactly. Most actions only say something (`Says`), and writing a text comes to
`Writing.written`, which depends on the text and on the name of the temporary file, but not on the
tree (`writeText_of_calm`).
-/

namespace GettextFill

/-- Operations on files come to what the tree says, and a file that is replaced is the only one that
changes. -/
structure Surroundings.IsCalm (s : Surroundings) : Prop where
  mishaps : s.mishaps = []
  atomic : (FileOptions.of s.session.files).atomic = true
  backsUp : (FileOptions.of s.session.files).backsUp = false
  log : s.session.log.toFiles = false

namespace Surroundings.IsCalm

variable {s : Surroundings}

/-- It stays calm whatever is said, whatever becomes of files and as time goes by. -/
theorem after (h : s.IsCalm) {said : List (Channel × List Document)} {tree : FileTree}
    {clock : Nat} : IsCalm { s with said, tree, clock } :=
  ⟨h.mishaps, h.atomic, h.backsUp, h.log⟩

theorem saying (h : s.IsCalm) (said : List (Channel × List Document)) : IsCalm { s with said } :=
  h.after

theorem pass (h : s.IsCalm) : s.pass = s := by
  rw [Surroundings.pass, h.mishaps, List.tail_nil, ← h.mishaps]

theorem mishap? (h : s.IsCalm) : s.mishap? = none := by
  rw [Surroundings.mishap?, h.mishaps]
  rfl

theorem attempt_of_ok (h : s.IsCalm) {operation : FileTree → Place → Except OsError FileTree}
    {tree : FileTree} (hok : operation s.tree s.here = .ok tree) :
    attempt operation s = (.ok (), { s with tree }) := by
  rw [attempt, h.mishap?]
  dsimp only
  rw [change, hok, h.pass]

theorem attempt_of_error (h : s.IsCalm) {operation : FileTree → Place → Except OsError FileTree}
    {e : OsError} (herror : operation s.tree s.here = .error e) :
    attempt operation s = (.error e, s) := by
  rw [attempt, h.mishap?]
  dsimp only
  rw [change, herror, h.pass]

end Surroundings.IsCalm

/-! ### Actions that say something -/

/-- An action that says something at most before it ends with a value. -/
def Says {α : Type} (x : StateM Surroundings α) (a : α) : Prop :=
  ∀ s : Surroundings, s.IsCalm → ∃ said, x s = (a, { s with said })

namespace Says

variable {α β : Type}

theorem pure (a : α) : Says (Pure.pure a) a := fun s _ => ⟨s.said, rfl⟩

theorem bind {x : StateM Surroundings α} {f : α → StateM Surroundings β} {a : α} {b : β}
    (hx : Says x a) (hf : Says (f a) b) : Says (x >>= f) b := by
  intro s hs
  obtain ⟨said, hsaid⟩ := hx s hs
  obtain ⟨said', hsaid'⟩ := hf { s with said } hs.after
  rw [bind_apply, hsaid]
  exact ⟨said', hsaid'⟩

theorem say (channel : Channel) (parts : List Document) :
    Says (Host.say channel parts : StateM Surroundings Unit) () := fun _ _ => ⟨_, rfl⟩

theorem tell (l : LogSettings) (level : LogLevel) (message : Text) (data : Option Document) :
    Says (GettextFill.tell l level message data) () := by
  unfold GettextFill.tell
  split
  · refine (say _ _).bind ?_
    split
    · split
      · exact say _ _
      · exact pure ()
    · exact pure ()
  · exact pure ()

theorem record (level : LogLevel) (message : Text) (data : Option Document) :
    Says (GettextFill.record level message data) () := by
  intro s hs
  rw [GettextFill.record, bind_apply]
  refine ((tell _ level message data).bind ?_) s hs
  rw [if_neg (by simp [Host.session, hs.log])]
  exact pure ()

end Says

/-! ### Replacing a file -/

namespace Writing

open FileTree Surroundings

/-- What becomes of a text that is to replace a file by way of a temporary one: its bytes, unless it
cannot be encoded or the name of the temporary file is too long. -/
def written (o : FileOptions) (temporary content : Text) : Except Refusal Bytes :=
  match o.encode content with
  | .error r => .error r
  | .ok bytes =>
    if isTooLong temporary then
      .error (OsError.refusal { errno := .nameTooLong, attempt := .on "open" temporary })
    else .ok bytes

variable {o : FileOptions} {path content : Text} {s s' : Surroundings}

theorem andThen_of_ok {action next : StateM Surroundings (Except Refusal Unit)}
    (h : action s = (.ok (), s')) : andThen action next s = next s' := by
  rw [andThen, bind_apply, h]

theorem andThen_of_error {action next : StateM Surroundings (Except Refusal Unit)} {r : Refusal}
    (h : action s = (.error r, s')) : andThen action next s = (.error r, s') := by
  rw [andThen, bind_apply, h]
  rfl

variable {temporary : Text}

theorem discard_of_error (hs : s.IsCalm) {errno : Errno}
    (h : s.tree.locate s.here temporary = .error errno) (hentry : errno ≠ .noEntry) :
    ∃ said, (discard temporary : StateM Surroundings Unit) s = ((), { s with said }) := by
  have hremove : s.tree.removeFile s.here temporary =
      .error { errno, attempt := .on "lstat" temporary } := by
    rw [removeFile, h]
    cases errno <;> first | rfl | exact absurd rfl hentry
  rw [discard, bind_apply]
  dsimp only [Host.removeFile]
  rw [hs.attempt_of_error hremove]
  exact ⟨_, rfl⟩

theorem discard_of_free (hs : s.IsCalm) {aside : Place}
    (h : s.tree.locate s.here temporary = .ok aside) (hfree : s.tree.node? aside = none) :
    (discard temporary : StateM Surroundings Unit) s =
      ((), { s with tree := s.tree.erase aside }) := by
  rw [discard, bind_apply]
  dsimp only [Host.removeFile]
  rw [hs.attempt_of_ok (removeFile_of_free h hfree)]
  rfl

/-- A file is there and can be replaced by way of a temporary file, unless the name of that is too
long. -/
structure Exchangeable (s : Surroundings) (path temporary : Text) (place aside : Place) : Prop where
  calm : s.IsCalm
  file : ∃ old, s.tree.reach s.here path = .ok (.file old)
  isPlace : place = Path.place s.here path
  isNamed : ∃ last, Path.lastName? path = some last
  slash : path.getLast? ≠ some '/'
  locate : s.tree.locate s.here temporary =
    if isTooLong temporary then .error .nameTooLong else .ok aside
  free : s.tree.node? aside = none
  slash' : temporary.getLast? ≠ some '/'

namespace Exchangeable

variable {place aside : Place}

/-- A temporary file that could not be made leaves nothing behind. -/
theorem discard (h : Exchangeable s path temporary place aside) :
    ∃ said tree, (Writing.discard temporary : StateM Surroundings Unit) s =
        ((), { s with said, tree }) ∧ ∀ p, tree.node? p = s.tree.node? p := by
  by_cases hlong : isTooLong temporary = true
  · have herror := h.locate
    rw [if_pos hlong] at herror
    obtain ⟨said, hsaid⟩ := discard_of_error h.calm herror (by simp)
    exact ⟨said, s.tree, hsaid, fun _ => rfl⟩
  · have hlocate := h.locate
    rw [if_neg hlong] at hlocate
    exact ⟨s.said, _, discard_of_free h.calm hlocate h.free, node?_erase_of_free h.free⟩

end Exchangeable

/-- The place of the temporary file of a path with a stamp. -/
def asideAt (s : Surroundings) (path : Text) (stamp : Stamp) : Place :=
  Path.place s.here (path ++ temporarySuffix stamp)

end Writing

end GettextFill
