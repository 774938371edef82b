import GettextFill.Files
import GettextFill.Logger
import GettextFill.Proofs.FileTree.Content

/-!
# Actions that spare a file

A run is made of actions on its surroundings, and almost all of them leave the file at a given path
alone, whatever mishaps they meet with. `Surroundings.Keeps` compares the surroundings at two times:
the file is the same, paths lead where they led, and the session goes on as before. `Sparing` says
of an action that it keeps this. Actions that follow each other spare what both spare
(`Sparing.bind`), so one lemma for each action of a host is enough.

Telling a message is such an action as long as no file of the log is the one to be spared
(`Sparing.record`).

An action that has `ReadsOnly` changes no file at all.
-/

namespace GettextFill

namespace Surroundings

/-- Later surroundings in which the file at a path is as it was. -/
structure Keeps (path : Text) (s s' : Surroundings) : Prop where
  tree : FileTree.Spares (Path.place s.here path) s.tree s'.tree
  here : s'.here = s.here
  files : s'.session.files = s.session.files
  log : s'.session.log = s.session.log

/-- If messages are kept, then not in the file at a path. -/
def LogsApart (path : Text) (s : Surroundings) : Prop :=
  s.session.log.toFiles = true →
    ∀ level, Path.place s.here (s.session.log.file level) ≠ Path.place s.here path

variable {path : Text} {s s' : Surroundings}

theorem Keeps.refl (path : Text) (s : Surroundings) : s.Keeps path s :=
  ⟨.refl _ _, rfl, rfl, rfl⟩

/-! ### What an operation comes to -/

/-- An operation is refused or changes the tree, and nothing else. -/
theorem change_cases (operation : FileTree → Place → Except OsError FileTree) (s : Surroundings) :
    (∃ e, change operation s = (.error e, s.pass)) ∨
      ∃ tree, operation s.tree s.here = .ok tree ∧
        change operation s = (.ok (), { s.pass with tree }) := by
  rw [change]
  cases operation s.tree s.here with
  | error e => exact Or.inl ⟨e, rfl⟩
  | ok tree => exact Or.inr ⟨tree, rfl, rfl⟩

theorem attempt_cases (operation : FileTree → Place → Except OsError FileTree) (s : Surroundings) :
    (∃ e, attempt operation s = (.error e, s.pass)) ∨
      ∃ tree, operation s.tree s.here = .ok tree ∧
        attempt operation s = (.ok (), { s.pass with tree }) := by
  rw [attempt]
  cases s.mishap? with
  | some m => exact Or.inl ⟨m.error, rfl⟩
  | none => exact change_cases operation s

/-- What an operation was to write is written as a whole if no error is told. -/
theorem write_eq_ok {operation : (Bytes → Bytes) → FileTree → Place → Except OsError FileTree}
    (h : write operation s = (.ok (), s')) :
    ∃ tree, operation id s.tree s.here = .ok tree ∧ s' = { s.pass with tree } := by
  rw [write] at h
  split at h
  · rcases change_cases (operation id) s with ⟨e, he⟩ | ⟨tree, htree, hok⟩
    · rw [he] at h
      cases h
    · rw [hok] at h
      cases h
      exact ⟨tree, htree, rfl⟩
  · cases h
  · cases h

end Surroundings

/-- An action that keeps the file at a path as it was at the start. -/
def Sparing {α : Type} (path : Text) (start : Surroundings) (x : StateM Surroundings α) : Prop :=
  ∀ s, start.Keeps path s → start.Keeps path (x s).2

namespace Sparing

variable {α β : Type} {path : Text} {start : Surroundings}

theorem pure (a : α) : Sparing path start (Pure.pure a : StateM Surroundings α) :=
  fun _ h => h

theorem bind {x : StateM Surroundings α} {f : α → StateM Surroundings β}
    (hx : Sparing path start x) (hf : ∀ a, Sparing path start (f a)) :
    Sparing path start (x >>= f) :=
  fun s h => hf (x s).1 (x s).2 (hx s h)

/-- What goes on from the session may rely on what it was at the start. -/
theorem session_bind {f : Session → StateM Surroundings α}
    (hf : ∀ session : Session, session.files = start.session.files →
      session.log = start.session.log → Sparing path start (f session)) :
    Sparing path start (Host.session >>= f) :=
  fun s h => hf s.session h.files h.log s h

theorem setSession {session : Session} (hfiles : session.files = start.session.files)
    (hlog : session.log = start.session.log) :
    Sparing path start (Host.setSession session) :=
  fun _ h => ⟨h.tree, h.here, hfiles, hlog⟩

theorem say (channel : Channel) (parts : List Document) :
    Sparing path start (Host.say channel parts) :=
  fun _ h => ⟨h.tree, h.here, h.files, h.log⟩

theorem now : Sparing path start (Host.now : StateM Surroundings Nat) :=
  fun _ h => ⟨h.tree, h.here, h.files, h.log⟩

/-! ### Operations on files -/

theorem look {seen : FileTree → Place → α} {broken : OsError → α} :
    Sparing path start (Surroundings.look seen broken) := by
  intro s h
  rw [Surroundings.look]
  split <;> exact ⟨h.tree, h.here, h.files, h.log⟩

theorem change {operation : FileTree → Place → Except OsError FileTree}
    (hop : ∀ t t', operation t start.here = .ok t' →
      FileTree.Spares (Path.place start.here path) t t') :
    Sparing path start (Surroundings.change operation) := by
  intro s h
  rcases Surroundings.change_cases operation s with ⟨e, he⟩ | ⟨tree, htree, hok⟩
  · rw [he]
    exact ⟨h.tree, h.here, h.files, h.log⟩
  · rw [h.here] at htree
    rw [hok]
    exact ⟨h.tree.trans (hop s.tree tree htree), h.here, h.files, h.log⟩

theorem attempt {operation : FileTree → Place → Except OsError FileTree}
    (hop : ∀ t t', operation t start.here = .ok t' →
      FileTree.Spares (Path.place start.here path) t t') :
    Sparing path start (Surroundings.attempt operation) := by
  intro s h
  rw [Surroundings.attempt]
  split
  · exact ⟨h.tree, h.here, h.files, h.log⟩
  · exact change hop s h

/-- An operation that writes spares a file if it does so however much of it happens. -/
theorem write {operation : (Bytes → Bytes) → FileTree → Place → Except OsError FileTree}
    (hop : ∀ part t t', operation part t start.here = .ok t' →
      FileTree.Spares (Path.place start.here path) t t') :
    Sparing path start (Surroundings.write operation) := by
  intro s h
  rw [Surroundings.write]
  split
  · exact change (hop id) s h
  · exact ⟨h.tree, h.here, h.files, h.log⟩
  · exact change (hop _) s h

theorem probe (other : Text) : Sparing path start (Host.probe other) := look

theorem writeFile {other : Text} (h : Path.place start.here other ≠ Path.place start.here path)
    (bytes : Bytes) : Sparing path start (Host.writeFile other bytes) :=
  write fun _ _ _ ht => FileTree.spares_of_putFile ht h

theorem appendFile {other : Text} (h : Path.place start.here other ≠ Path.place start.here path)
    (more : Bytes) : Sparing path start (Host.appendFile other more) :=
  write fun _ _ _ ht => FileTree.spares_of_putFile ht h

/-- A file can be copied anywhere. -/
theorem copyFile (target : Text) : Sparing path start (Host.copyFile path target) :=
  write fun _ _ _ ht => FileTree.spares_of_copyFile ht

theorem removeFile {other : Text} (h : Path.place start.here other ≠ Path.place start.here path) :
    Sparing path start (Host.removeFile other) :=
  attempt fun _ _ ht => FileTree.spares_of_removeFile ht h

theorem makeDirectories (other : Text) : Sparing path start (Host.makeDirectories other) := by
  intro s h
  dsimp only [Host.makeDirectories]
  split
  · exact ⟨h.tree, h.here, h.files, h.log⟩
  · exact ⟨h.tree.trans (FileTree.spares_makeDirectories _ other), h.here, h.files, h.log⟩

/-! ### Messages -/

theorem tell (l : LogSettings) (level : LogLevel) (message : Text) (data : Option Document) :
    Sparing path start (GettextFill.tell l level message data) := by
  unfold GettextFill.tell
  split
  · refine (say _ _).bind fun _ => ?_
    split
    · split
      · exact say _ _
      · exact pure ()
    · exact pure ()
  · exact pure ()

theorem prepareLog (l : LogSettings) : Sparing path start (GettextFill.prepareLog l) := by
  rw [GettextFill.prepareLog]
  refine session_bind fun session _ _ => ?_
  split
  · exact pure ()
  · refine (makeDirectories l.directory).bind fun made => ?_
    have hready : Sparing path start (do
        Host.setSession { ← Host.session with logReady := true } : StateM Surroundings Unit) :=
      session_bind fun session hfiles hlog => setSession hfiles hlog
    split
    · exact hready
    · exact (say _ _).bind fun _ => hready

theorem keepMessage {l : LogSettings} {level : LogLevel}
    (h : Path.place start.here (l.file level) ≠ Path.place start.here path) (message : Text)
    (data : Option Document) : Sparing path start (GettextFill.keepMessage l level message data) := by
  rw [GettextFill.keepMessage]
  refine (prepareLog l).bind fun _ => ?_
  split
  · refine (now.bind fun _ => pure _).bind fun _ => (appendFile h _).bind fun done => ?_
    cases done with
    | ok _ => exact pure ()
    | error e => exact say _ _
  · refine (pure _).bind fun _ => (appendFile h _).bind fun done => ?_
    cases done with
    | ok _ => exact pure ()
    | error e => exact say _ _

/-- Telling a message spares every file but those of the log. -/
theorem record (h : start.LogsApart path) (level : LogLevel) (message : Text)
    (data : Option Document) : Sparing path start (GettextFill.record level message data) := by
  rw [GettextFill.record]
  refine session_bind fun session _ hlog => ?_
  refine (tell _ level message data).bind fun _ => ?_
  split
  · next hfiles =>
    rw [hlog] at hfiles ⊢
    exact keepMessage (h hfiles level) message data
  · exact pure ()

end Sparing

/-- An action that looks at files at most. -/
def ReadsOnly {α : Type} (x : StateM Surroundings α) : Prop :=
  ∀ s, (x s).2.tree = s.tree ∧ (x s).2.here = s.here

namespace ReadsOnly

variable {α β : Type}

theorem pure (a : α) : ReadsOnly (Pure.pure a : StateM Surroundings α) := fun _ => ⟨rfl, rfl⟩

theorem bind {x : StateM Surroundings α} {f : α → StateM Surroundings β} (hx : ReadsOnly x)
    (hf : ∀ a, ReadsOnly (f a)) : ReadsOnly (x >>= f) := by
  intro s
  obtain ⟨htree, hhere⟩ := hf (x s).1 (x s).2
  exact ⟨htree.trans (hx s).1, hhere.trans (hx s).2⟩

theorem look {seen : FileTree → Place → α} {broken : OsError → α} :
    ReadsOnly (Surroundings.look seen broken) := by
  intro s
  rw [Surroundings.look]
  split <;> exact ⟨rfl, rfl⟩

theorem say (channel : Channel) (parts : List Document) :
    ReadsOnly (Host.say channel parts : StateM Surroundings Unit) := fun _ => ⟨rfl, rfl⟩

theorem session : ReadsOnly (Host.session : StateM Surroundings Session) := fun _ => ⟨rfl, rfl⟩

theorem setSession (session : Session) :
    ReadsOnly (Host.setSession session : StateM Surroundings Unit) := fun _ => ⟨rfl, rfl⟩

theorem setEnvironment (name value : Text) :
    ReadsOnly (Host.setEnvironment name value : StateM Surroundings Unit) := fun _ => ⟨rfl, rfl⟩

end ReadsOnly

end GettextFill
