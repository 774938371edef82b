import GettextFill.Proofs.Host

/-!
# Replacing a file

Text is written beside its file first, and the file is replaced only by a text that is complete. An
action that writes in this way has `Replacing`: if it succeeds, the file holds the text, and if it
is refused at any step, the file is as it was (`replacing_replace`). All steps before the last spare
the file, which is where the name of the temporary file and that of a backup come in.
-/

namespace GettextFill

/-- A file that was replaced by a text, in surroundings that are the same otherwise. -/
structure Surroundings.Replaced (path : Text) (o : FileOptions) (content : Text)
    (s s' : Surroundings) : Prop where
  content : ∃ bytes, o.encode content = .ok bytes ∧ s'.tree.readFile s'.here path = .ok bytes
  here : s'.here = s.here
  files : s'.session.files = s.session.files
  log : s'.session.log = s.session.log

/-- An action that replaces the file at a path by a text or keeps it as it was at the start. -/
def Replacing {ε : Type} (path : Text) (start : Surroundings) (o : FileOptions) (content : Text)
    (x : StateM Surroundings (Except ε Unit)) : Prop :=
  ∀ s, start.Keeps path s →
    match x s with
    | (.ok (), s') => start.Replaced path o content s'
    | (.error _, s') => start.Keeps path s'

theorem bind_apply {α β : Type} (x : StateM Surroundings α) (f : α → StateM Surroundings β)
    (s : Surroundings) : (x >>= f) s = f (x s).1 (x s).2 := rfl

section

variable {path : Text} {start : Surroundings} {o : FileOptions} {content : Text} {ε ε' : Type}

/-- What follows an action that replaces a file may do something about an error, but not undo it. -/
theorem Replacing.bind {x : StateM Surroundings (Except ε Unit)}
    {f : Except ε Unit → StateM Surroundings (Except ε' Unit)}
    (hx : Replacing path start o content x) (hok : ∀ s, f (.ok ()) s = (.ok (), s))
    (herror : ∀ e s, start.Keeps path s →
      ∃ e' s', f (.error e) s = (.error e', s') ∧ start.Keeps path s') :
    Replacing path start o content (x >>= f) := by
  intro s hs
  have hdone := hx s hs
  rw [bind_apply]
  rcases hresult : x s with ⟨done, s'⟩
  rw [hresult] at hdone
  cases done with
  | ok done =>
      rw [hok]
      exact hdone
  | error e =>
      obtain ⟨e', s'', hfailed, hkept⟩ := herror e s' hdone
      rw [hfailed]
      exact hkept

end

namespace Writing

variable {path : Text} {start : Surroundings} {o : FileOptions} {content : Text}

/-! ### Steps before the last -/

theorem sparing_step {action : StateM Surroundings (Except OsError Unit)}
    (h : Sparing path start action) : Sparing path start (step action) := by
  rw [step]
  refine h.bind fun done => ?_
  split <;> exact .pure _

theorem sparing_andThen {action next : StateM Surroundings (Except Refusal Unit)}
    (h : Sparing path start action) (hnext : Sparing path start next) :
    Sparing path start (andThen action next) := by
  rw [andThen]
  refine h.bind fun done => ?_
  split
  · exact hnext
  · exact .pure _

theorem sparing_direct {other : Text}
    (h : Path.place start.here other ≠ Path.place start.here path) :
    Sparing path start (direct o other content) := by
  rw [direct]
  split
  · exact .pure _
  · exact sparing_step (.writeFile h _)

theorem sparing_discard {temporary : Text}
    (h : Path.place start.here temporary ≠ Path.place start.here path) :
    Sparing path start (discard temporary) := by
  rw [discard]
  refine (Sparing.removeFile h).bind fun done => ?_
  split
  · exact .pure ()
  · exact .say _ _

theorem sparing_makeRoom : Sparing path start (makeRoom o path) := by
  rw [makeRoom]
  split
  · exact sparing_step (.makeDirectories _)
  · exact .pure _

/-- Keeping the file under another name spares it, whatever that name is. -/
theorem sparing_backUp : Sparing path start (backUp o path) := by
  rw [backUp]
  split
  · exact .pure _
  · exact sparing_andThen (sparing_step (.makeDirectories _))
      (Sparing.now.bind fun _ => sparing_step (.copyFile _))

theorem sparing_keepPrevious : Sparing path start (keepPrevious o path) := by
  rw [keepPrevious]
  split
  · refine ((Sparing.probe path).bind fun _ => .pure _).bind fun isThere => ?_
    split
    · exact sparing_backUp
    · exact .pure _
  · exact .pure _

/-! ### The last step -/

theorem step_eq_ok {action : StateM Surroundings (Except OsError Unit)} {s s' : Surroundings}
    (h : step action s = (.ok (), s')) : action s = (.ok (), s') := by
  rw [step, bind_apply] at h
  rcases hdone : action s with ⟨done, s''⟩
  rw [hdone] at h
  cases done with
  | error e => cases h
  | ok done =>
      cases h
      rfl

/-- A file that was written holds the text that was to be written. -/
theorem content?_of_direct {other : Text} {s s' : Surroundings}
    (h : (direct o other content : StateM Surroundings _) s = (.ok (), s')) :
    ∃ bytes, o.encode content = .ok bytes ∧
      s'.tree.content? (Path.place s.here other) = some bytes := by
  cases hbytes : o.encode content with
  | error r =>
      rw [direct, hbytes] at h
      cases h
  | ok bytes =>
      rw [direct, hbytes] at h
      obtain ⟨tree, htree, rfl⟩ := Surroundings.write_eq_ok (step_eq_ok h)
      exact ⟨bytes, rfl, FileTree.content?_of_writeFile htree⟩

theorem not_mem_ofNat {c : Char} (hc : c.isDigit = false) (n : Nat) : c ∉ Text.ofNat n := by
  intro h
  rw [Nat.isDigit_of_mem_toDigits (by simp) (by simp) h] at hc
  cases hc

/-- What the name of a temporary file is made of. -/
structure Stamp where
  time : Nat
  nonce : Nonce

/-- What the name of a temporary file has behind that of its target. -/
def temporarySuffix (stamp : Stamp) : Text :=
  ".tmp." ++ Text.ofNat stamp.time ++ "." ++ stamp.nonce.text

end Writing

/-- The stamp of a temporary file that is named at a tick of the clock. -/
def Surroundings.stampAt (s : Surroundings) (tick : Nat) : Writing.Stamp :=
  { time := s.times tick, nonce := s.nonces (tick + 1) }

namespace Writing

theorem temporaryPath_apply (path : Text) (s : Surroundings) :
    (temporaryPath path : StateM Surroundings Text) s =
      (path ++ temporarySuffix (s.stampAt s.clock), { s with clock := s.clock + 1 }) := by
  have hassoc (first digits point last : Text) :
      path ++ first ++ digits ++ point ++ last = path ++ (first ++ digits ++ point ++ last) := by
    simp only [List.append_assoc]
  exact Prod.ext (hassoc _ _ _ _) rfl

theorem not_mem_temporarySuffix {c : Char} (hdigit : c.isDigit = false)
    (hc : c ∉ (".tmp." ++ "." ++ Nonce.alphabet : Text)) (stamp : Stamp) :
    c ∉ temporarySuffix stamp := by
  unfold temporarySuffix
  simp only [List.mem_append, not_or] at hc ⊢
  exact ⟨⟨⟨hc.1.1, not_mem_ofNat hdigit stamp.time⟩, hc.1.2⟩,
    fun hnonce => hc.2 (stamp.nonce.mem_alphabet c hnonce)⟩

theorem slash_not_mem_temporarySuffix (stamp : Stamp) : '/' ∉ temporarySuffix stamp :=
  not_mem_temporarySuffix rfl (by decide) stamp

theorem length_temporarySuffix (stamp : Stamp) : 2 < (temporarySuffix stamp).length := by
  have hpoint : (".tmp." : Text) <+: temporarySuffix stamp := by
    unfold temporarySuffix
    rw [List.append_assoc, List.append_assoc]
    exact List.prefix_append _ _
  exact Nat.lt_of_lt_of_le (by decide) hpoint.length_le

/-- The last step is refused or puts another file in the place of the one at a path. -/
theorem rename_cases (temporary path : Text) (s : Surroundings) :
    (∃ r, (step (Host.rename temporary path) : StateM Surroundings _) s = (.error r, s.pass)) ∨
      ∃ tree, s.tree.rename s.here temporary path = .ok tree ∧
        (step (Host.rename temporary path) : StateM Surroundings _) s =
          (.ok (), { s.pass with tree }) := by
  rw [step, bind_apply]
  rcases Surroundings.attempt_cases (fun t here => t.rename here temporary path) s with
    ⟨e, he⟩ | ⟨tree, htree, hok⟩
  · refine Or.inl ⟨e.refusal, ?_⟩
    dsimp only [Host.rename]
    rw [he]
    rfl
  · refine Or.inr ⟨tree, htree, ?_⟩
    dsimp only [Host.rename]
    rw [hok]
    rfl

/-- Text that was written beside the file at a path takes its place, if all goes well. -/
theorem replacing_exchange {temporary : Text}
    (h : Path.place start.here temporary ≠ Path.place start.here path) :
    Replacing path start o content
      (andThen (direct o temporary content) (step (Host.rename temporary path))) := by
  intro s hs
  rw [andThen, bind_apply]
  have hkept : start.Keeps path ((direct o temporary content : StateM Surroundings _) s).2 :=
    sparing_direct h s hs
  rcases hdirect : (direct o temporary content : StateM Surroundings _) s with ⟨done, s'⟩
  rw [hdirect] at hkept
  cases done with
  | error r => exact hkept
  | ok done =>
      dsimp only
      obtain ⟨bytes, hbytes, hcontent⟩ := content?_of_direct hdirect
      rcases rename_cases temporary path s' with ⟨r, hr⟩ | ⟨tree, htree, hok⟩
      · rw [hr]
        exact ⟨hkept.tree, hkept.here, hkept.files, hkept.log⟩
      · rw [hok]
        obtain ⟨moved, hmoved, hread⟩ := FileTree.readFile_of_rename htree
        -- what is moved is what was written: nothing came between the two steps
        rw [hkept.here, ← hs.here, hcontent] at hmoved
        cases hmoved
        exact ⟨⟨bytes, hbytes, hread⟩, hkept.here, hkept.files, hkept.log⟩

theorem replacing_atomically : Replacing path start o content (atomically o path content) := by
  intro s hs
  have hne := Path.place_append_ne (slash_not_mem_temporarySuffix (s.stampAt s.clock))
    (length_temporarySuffix (s.stampAt s.clock)) start.here path
  rw [atomically, bind_apply, temporaryPath_apply]
  dsimp only
  refine (replacing_exchange hne).bind ?_ ?_ { s with clock := s.clock + 1 }
    ⟨hs.tree, hs.here, hs.files, hs.log⟩
  · exact fun _ => rfl
  · exact fun r s' hs' => ⟨r, _, rfl, sparing_discard hne s' hs'⟩

/-! ### All steps -/

theorem replacing_andThen {action next : StateM Surroundings (Except Refusal Unit)}
    (h : Sparing path start action) (hnext : Replacing path start o content next) :
    Replacing path start o content (andThen action next) := by
  intro s hs
  rw [andThen, bind_apply]
  have hkept := h s hs
  rcases hdone : action s with ⟨done, s'⟩
  rw [hdone] at hkept
  cases done with
  | error r => exact hkept
  | ok done => exact hnext s' hkept

/-- A file that is replaced at once by one that is complete holds what it held or all that is to be
written, at whatever step the writing ends. -/
theorem replacing_replace (hatomic : o.atomic = true) :
    Replacing path start o content (replace o path content) := by
  rw [replace, if_pos hatomic]
  exact replacing_andThen sparing_makeRoom
    (replacing_andThen sparing_keepPrevious replacing_atomically)

end Writing

/-! ### Texts -/

theorem pathExists_eq (path : Text) (s : Surroundings) :
    ∃ found, (pathExists path : StateM Surroundings Bool) s = (found, s.pass) := by
  rw [pathExists, bind_apply]
  dsimp only [Host.probe]
  rw [Surroundings.look]
  split <;> exact ⟨_, rfl⟩

theorem effectiveOptions_none (s : Surroundings) :
    (effectiveOptions none : StateM Surroundings FileOptions) s =
      (FileOptions.of s.session.files, s) := rfl

/-- Reading leaves the surroundings as they are. A text that is read is that of the file. -/
theorem readText_cases (path : Text) (s : Surroundings) :
    (∃ f, (readText path none : StateM Surroundings _) s = (.error f, s.pass)) ∨
      ∃ bytes t, s.tree.readFile s.here path = .ok bytes ∧
        (FileOptions.of s.session.files).decode bytes = .ok t ∧
        (readText path none : StateM Surroundings _) s = (.ok t, s.pass) := by
  rw [readText, bind_apply, effectiveOptions_none, bind_apply]
  dsimp only [Host.readFile]
  rw [Surroundings.look]
  cases s.mishap? with
  | some m => exact Or.inl ⟨_, rfl⟩
  | none =>
      cases hread : s.tree.readFile s.here path with
      | error e => exact Or.inl ⟨_, rfl⟩
      | ok bytes =>
          dsimp only
          cases hdecode : (FileOptions.of s.session.files).decode bytes with
          | error r => exact Or.inl ⟨_, rfl⟩
          | ok t => exact Or.inr ⟨bytes, t, rfl, hdecode, rfl⟩

theorem readsOnly_pathExists (path : Text) :
    ReadsOnly (pathExists path : StateM Surroundings Bool) :=
  ReadsOnly.look.bind fun _ => .pure _

theorem readsOnly_readText (path : Text) :
    ReadsOnly (readText path none : StateM Surroundings _) := by
  intro s
  rcases readText_cases path s with ⟨f, hread⟩ | ⟨bytes, t, -, -, hread⟩ <;>
  · rw [hread]
    exact ⟨rfl, rfl⟩

/-- Writing a text replaces the file or leaves it as it was. -/
theorem replacing_writeText {path : Text} {start : Surroundings}
    (hatomic : (FileOptions.of start.session.files).atomic = true) (content : Text) :
    Replacing path start (FileOptions.of start.session.files) content
      (writeText path content none) := by
  intro s hs
  rw [writeText, bind_apply, effectiveOptions_none, hs.files]
  dsimp only
  refine (Writing.replacing_replace hatomic).bind ?_ ?_ s hs
  · exact fun _ => rfl
  · exact fun r s' hs' => ⟨_, s', rfl, hs'⟩

end GettextFill
