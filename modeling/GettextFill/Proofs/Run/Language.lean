import GettextFill.Proofs.Files
import GettextFill.Readers.Standard
import GettextFill.Run.Language

/-!
# What a result says of a catalog

The result of a language tells whether its catalog was written. `LanguageResult.Accounts` states
what that is worth: a catalog that was written holds the filled text of what was there before, all
of it and checked if that was asked for; any other catalog holds what it held. It is true of every
result that `fillLanguage` ends with, whatever operation on files met with a mishap on the way, if
files are replaced at once and no file of the log is the catalog.

There is one lemma for every way to end: with a fault (`accounts_fail`, `accounts_skip`), with
nothing to fill, and with a filled text (`accounts_save`).
-/

namespace GettextFill

/-- Files are replaced at once and hold text in the usual encoding. -/
structure FileOptions.IsUsual (o : FileOptions) : Prop where
  atomic : o.atomic = true
  encoding : o.encoding = .text "utf8"

theorem FileOptions.IsUsual.decode_eq_ok_iff {o : FileOptions} (h : o.IsUsual) {bytes : Bytes}
    {t : Text} : o.decode bytes = .ok t ↔ Utf8.decode? bytes = some t := by
  have hstrict : o.strict = true := by
    rw [strict, h.encoding]
    decide
  rw [decode, if_pos hstrict]
  cases Utf8.decode? bytes <;> simp

theorem FileOptions.IsUsual.encode {o : FileOptions} (h : o.IsUsual) (t : Text) :
    o.encode t = .ok (Utf8.encode t) := by
  rw [FileOptions.encode, h.encoding]
  rfl

/-- What the text of the file at a path comes to when it is filled. -/
def Surroundings.IsFilling (s : Surroundings) (table : Table) (language path : Text)
    (f : FilledText) : Prop :=
  ∃ bytes t, s.tree.readFile s.here path = .ok bytes ∧ Utf8.decode? bytes = some t ∧
    f = FilledText.of table t language

section

variable [Readers]

/-- A filled text is not to be checked, or the check finds nothing wrong. -/
def FilledText.IsAccepted (f : FilledText) (o : FillOptions) : Prop :=
  o.verifies = true → ∃ v, verify f.content f.outcome.fills = some v ∧ v.valid = true

/-- A result that agrees with the catalog before and after a language was filled. -/
structure LanguageResult.Accounts (table : Table) (o : FillOptions) (language : Text)
    (s s' : Surroundings) (r : LanguageResult) : Prop where
  path : r.path = Path.catalog o.directory language o.extension
  written : r.written = true ↔ r.state = .filled ∧ o.writes = true
  replaced : r.written = true → ∃ f, s.IsFilling table language r.path f ∧ f.IsAccepted o ∧
    r.filled = f.outcome.filled ∧ 0 < r.filled ∧
      s'.tree.readFile s'.here r.path = .ok (Utf8.encode f.content)
  kept : r.written = false → s.Keeps r.path s'
  failed : r.state = .failed → r.filled = 0 ∧ r.error.isSome = true

namespace LanguageResult

variable {table : Table} {o : FillOptions} {language : Text} {start s s' : Surroundings}
  {r : LanguageResult}

/-- A result that has nothing written, of a language whose catalog is as it was. -/
theorem accounts_of_keeps (hpath : r.path = Path.catalog o.directory language o.extension)
    (hkeeps : s.Keeps r.path s') (hwritten : r.written = false)
    (hfilled : r.state = .filled → o.writes = false)
    (hfailed : r.state = .failed → r.filled = 0 ∧ r.error.isSome = true) :
    r.Accounts table o language s s' where
  path := hpath
  written := by
    constructor
    · intro h
      rw [hwritten] at h
      cases h
    · rintro ⟨hstate, hwrites⟩
      rw [hfilled hstate] at hwrites
      cases hwrites
  replaced h := by
    rw [hwritten] at h
    cases h
  kept _ := hkeeps
  failed := hfailed

/-- A result that tells of a catalog that was replaced and then left alone. -/
theorem accounts_of_replaced {f : FilledText}
    (hpath : r.path = Path.catalog o.directory language o.extension)
    (husual : FileOptions.IsUsual (.of start.session.files))
    (hfilling : start.IsFilling table language r.path f) (haccepted : f.IsAccepted o)
    (hwrites : o.writes = true) (hstate : r.state = .filled) (hwritten : r.written = true)
    (hfilled : r.filled = f.outcome.filled) (hpos : 0 < f.outcome.filled)
    (hreplaced : start.Replaced r.path (.of start.session.files) f.content s)
    (hkeeps : s.Keeps r.path s') : r.Accounts table o language start s' where
  path := hpath
  written := ⟨fun _ => ⟨hstate, hwrites⟩, fun _ => hwritten⟩
  replaced _ := by
    obtain ⟨bytes, hbytes, hread⟩ := hreplaced.content
    rw [husual.encode] at hbytes
    cases hbytes
    refine ⟨f, hfilling, haccepted, hfilled, hfilled ▸ hpos, ?_⟩
    rw [hkeeps.here]
    exact hkeeps.tree.readFile hread
  kept h := by
    rw [hwritten] at h
    cases h
  failed h := by
    rw [hstate] at h
    cases h

theorem accounts_skip (hpath : r.path = Path.catalog o.directory language o.extension)
    (hwritten : r.written = false) (hlog : start.LogsApart r.path) {state : LanguageState}
    (hstate : state = .missingFile ∨ state = .unknownLanguage) (f : Fault)
    (hs : start.Keeps r.path s) :
    ((r.skip state f : StateM Surroundings _) s).1.Accounts table o language start
      ((r.skip state f : StateM Surroundings _) s).2 := by
  refine accounts_of_keeps hpath (Sparing.record hlog _ _ _ s hs) hwritten ?_ ?_ <;>
  · intro (h : state = _)
    rcases hstate with rfl | rfl <;> cases h

theorem accounts_fail (hpath : r.path = Path.catalog o.directory language o.extension)
    (hlog : start.LogsApart r.path) (f : Fault) (hs : start.Keeps r.path s) :
    ((r.fail f : StateM Surroundings _) s).1.Accounts table o language start
      ((r.fail f : StateM Surroundings _) s).2 :=
  accounts_of_keeps hpath (Sparing.record hlog _ _ _ s hs) rfl (fun h => by cases h)
    fun _ => ⟨rfl, rfl⟩

end LanguageResult

end

variable {table : Table} {o : FillOptions} {language : Text} {start s s' : Surroundings}
  {r : LanguageResult} {f : FilledText}

theorem sparing_warnOfLines {path : Text} (hlog : start.LogsApart path) (other : Text)
    (numbers : List Nat) (words : Text) :
    Sparing path start (warnOfLines other numbers words) := by
  rw [warnOfLines]
  split
  · exact .pure ()
  · exact .record hlog _ _ _

theorem Surroundings.LogsApart.of_eq {path : Text} (h : s.LogsApart path) (hhere : s'.here = s.here)
    (hlog : s'.session.log = s.session.log) : s'.LogsApart path := by
  rw [LogsApart, hlog, hhere]
  exact h

section

variable [Readers]

theorem FilledText.accounts_save (hpath : r.path = Path.catalog o.directory language o.extension)
    (hlog : start.LogsApart r.path) (husual : FileOptions.IsUsual (.of start.session.files))
    (hfilling : start.IsFilling table language r.path f) (haccepted : f.IsAccepted o)
    (hfilled : 0 < f.outcome.filled) (hs : start.Keeps r.path s) :
    ((f.save r o : StateM Surroundings _) s).1.Accounts table o language start
      ((f.save r o : StateM Surroundings _) s).2 := by
  rw [save, bind_apply]
  have hs' := sparing_warnOfLines hlog r.path f.catalog.moved
    " comment line(s) inside an entry are written above it" s hs
  generalize ((warnOfLines r.path f.catalog.moved
    " comment line(s) inside an entry are written above it" : StateM Surroundings Unit) s).2 = s'
    at hs' ⊢
  by_cases hwrites : o.writes = true
  · rw [hwrites]
    rw [if_neg (by decide), bind_apply]
    have hwrite := replacing_writeText husual.atomic f.content s' hs'
    generalize (writeText r.path f.content none : StateM Surroundings _) s' = outcome at hwrite ⊢
    obtain ⟨done, s''⟩ := outcome
    cases done with
    | error fault => exact LanguageResult.accounts_fail hpath hlog fault hwrite
    | ok done =>
        -- from here on it is the new content that the messages have to spare
        have hafter : s''.LogsApart r.path := hlog.of_eq hwrite.here hwrite.log
        have htold (words : Text) (outcome : Outcome) : Sparing r.path s'' (do
            record .info words none
            r.succeed outcome true : StateM Surroundings LanguageResult) :=
          (Sparing.record hafter _ _ _).bind fun _ =>
            (Sparing.record hafter _ _ _).bind fun _ => .pure _
        exact LanguageResult.accounts_of_replaced hpath husual hfilling haccepted hwrites rfl rfl
          rfl hfilled hwrite (htold _ _ s'' (.refl _ s''))
  · rw [Bool.not_eq_true] at hwrites
    rw [hwrites]
    exact LanguageResult.accounts_of_keeps hpath (Sparing.record hlog _ _ _ s' hs') rfl
      (fun _ => hwrites) fun h => by cases h

theorem FilledText.check_eq_ok_iff (f : FilledText) (path : Text) (o : FillOptions) :
    f.check path o = .ok () ↔ f.IsAccepted o := by
  rw [check, IsAccepted]
  cases o.verifies with
  | false => simp
  | true =>
      cases verify f.content f.outcome.fills with
      | none => simp
      | some v => cases hv : v.valid <;> simp [hv]

/-- A filled text ends in a result that agrees with the catalog, if the check does not break off. -/
theorem FilledText.accounts_conclude
    (hpath : r.path = Path.catalog o.directory language o.extension)
    (hwritten : r.written = false) (hstate : r.state = .unchanged)
    (hlog : start.LogsApart r.path) (husual : FileOptions.IsUsual (.of start.session.files))
    (hfilling : start.IsFilling table language r.path f) (hs : start.Keeps r.path s) :
    ∀ result, ((f.conclude r o : StateM Surroundings _) s).1 = .ok result →
      result.Accounts table o language start
        ((f.conclude r o : StateM Surroundings _) s).2 := by
  let r' : LanguageResult :=
    { r with ignored := f.catalog.ignored, untranslated := f.remaining.untranslated }
  rw [conclude, bind_apply]
  have hs' := sparing_warnOfLines hlog r.path f.catalog.ignored " line(s) belong to no entry" s hs
  dsimp only
  generalize ((warnOfLines r.path f.catalog.ignored " line(s) belong to no entry" :
    StateM Surroundings Unit) s).2 = s' at hs' ⊢
  by_cases hzero : f.outcome.filled = 0
  · rw [if_pos hzero]
    rintro result ⟨⟩
    exact LanguageResult.accounts_of_keeps (r := r') hpath hs' hwritten (by simp [r', hstate])
      (by simp [r', hstate])
  · rw [if_neg hzero]
    cases hcheck : f.check r'.path o with
    | error failure =>
        cases failure with
        | crash message => exact fun _ h => by cases h
        | fault fault =>
            rintro result ⟨⟩
            exact LanguageResult.accounts_fail (r := r') hpath hlog fault hs'
    | ok _ =>
        rintro result ⟨⟩
        have haccepted := (f.check_eq_ok_iff r'.path o).mp hcheck
        exact accounts_save (r := r') hpath hlog husual hfilling haccepted
          (Nat.pos_of_ne_zero hzero) hs'

/-- The ways of a language: its catalog is skipped, cannot be read or is filled. Until then nothing
has changed but that operations on files have come to pass. -/
theorem fillLanguage_cases (table : Table) (o : FillOptions) (language : Text) (s : Surroundings) :
    let r : LanguageResult := { language, path := Path.catalog o.directory language o.extension }
    let x : StateM Surroundings _ := fillLanguage table o language
    (∃ state fault, (state = .missingFile ∨ state = .unknownLanguage) ∧
      x s = (Except.ok <$> r.skip state fault : StateM Surroundings _) s.pass) ∨
    (∃ fault, x s = (Except.ok <$> r.fail fault : StateM Surroundings _) s.pass.pass) ∨
    ∃ bytes t, s.tree.readFile s.here r.path = .ok bytes ∧
      (FileOptions.of s.session.files).decode bytes = .ok t ∧
      x s = ((FilledText.of table t language).conclude r o : StateM Surroundings _) s.pass.pass := by
  intro r x
  obtain ⟨found, hfound⟩ := pathExists_eq r.path s
  dsimp only [x]
  rw [fillLanguage, bind_apply, hfound]
  cases found with
  | false => exact Or.inl ⟨.missingFile, _, Or.inl rfl, rfl⟩
  | true =>
      dsimp only
      rw [if_neg (by decide)]
      cases table.hasLanguage language with
      | false => exact Or.inl ⟨.unknownLanguage, _, Or.inr rfl, rfl⟩
      | true =>
          rw [if_neg (by decide), bind_apply]
          rcases readText_cases r.path s.pass with
            ⟨fault, hread⟩ | ⟨bytes, t, hbytes, hdecode, hread⟩ <;> rw [hread]
          · exact Or.inr (Or.inl ⟨fault, rfl⟩)
          · exact Or.inr (Or.inr ⟨bytes, t, hbytes, hdecode, rfl⟩)

/-- Every result of a language agrees with its catalog. -/
theorem fillLanguage_accounts (hlog : s.LogsApart (Path.catalog o.directory language o.extension))
    (husual : FileOptions.IsUsual (.of s.session.files)) :
    ∀ result, ((fillLanguage table o language : StateM Surroundings _) s).1 = .ok result →
      result.Accounts table o language s
        ((fillLanguage table o language : StateM Surroundings _) s).2 := by
  have hpass (path : Text) : s.Keeps path s.pass := ⟨.refl _ _, rfl, rfl, rfl⟩
  have hpass' (path : Text) : s.Keeps path s.pass.pass := ⟨.refl _ _, rfl, rfl, rfl⟩
  rcases fillLanguage_cases table o language s with
    ⟨state, fault, hstate, hx⟩ | ⟨fault, hx⟩ | ⟨bytes, t, hbytes, hdecode, hx⟩ <;> rw [hx]
  · rintro result ⟨⟩
    exact LanguageResult.accounts_skip rfl rfl hlog hstate fault (hpass _)
  · rintro result ⟨⟩
    exact LanguageResult.accounts_fail rfl hlog fault (hpass' _)
  · have hfilling : s.IsFilling table language
        (Path.catalog o.directory language o.extension) (.of table t language) :=
      ⟨bytes, t, hbytes, husual.decode_eq_ok_iff.mp hdecode, rfl⟩
    exact FilledText.accounts_conclude rfl rfl rfl hlog husual hfilling (hpass' _)

end

theorem eq_ok_of_toOption {ε α : Type} {x : Except ε α} {a : α} (h : x.toOption = some a) :
    x = .ok a := by
  cases x with
  | error e => cases h
  | ok b =>
      cases h
      rfl

/-- A catalog that is written while messages are kept and the catalog before is kept as well. -/
theorem fillLanguage_accounts_backedUp :
    let table : Table := { sections := [("fr", [("a", "A")])] }
    let o : FillOptions := { directory := "po", extension := ".po", languages := [] }
    let s : Surroundings :=
      { tree :=
          { nodes :=
              [(["po"], .directory),
                (["po", "fr.po"], .file (Utf8.encode "msgid \"a\"\nmsgstr \"\"\n"))] }
        here := []
        session :=
          { Session.initial with
            files := Session.defaultFiles.insert "backupFiles" (.bool true)
            log := { toFiles := true } } }
    let r : LanguageResult :=
      { language := "fr", path := "po/fr.po", state := .filled, filled := 1, written := true }
    s.LogsApart (Path.catalog o.directory "fr" o.extension) ∧
      FileOptions.IsUsual (.of s.session.files) ∧
      ((fillLanguage table o "fr" : StateM Surroundings _) s).1 = .ok r ∧
      r.Accounts table o "fr" s ((fillLanguage table o "fr" : StateM Surroundings _) s).2 := by
  intro table o s r
  have hlog : s.LogsApart (Path.catalog o.directory "fr" o.extension) := by
    intro _ level
    cases level <;> decide +kernel
  have husual : FileOptions.IsUsual (.of s.session.files) := ⟨rfl, rfl⟩
  have hr : ((fillLanguage table o "fr" : StateM Surroundings _) s).1 = .ok r :=
    eq_ok_of_toOption (by decide +kernel)
  exact ⟨hlog, husual, hr, fillLanguage_accounts hlog husual r hr⟩

/-- Messages go into a catalog that is a file of the log, one that was left alone as well as one that
was written. -/
theorem fillLanguage_logged :
    let table : Table := { sections := [("fr", [("a", "A")])] }
    let o (extension : Text) : FillOptions := { directory := "logs", extension, languages := [] }
    let before : Text := "msgid \"a\"\nmsgstr \"\"\n"
    let s (name : Text) : Surroundings :=
      { tree :=
          { nodes := [(["logs"], .directory), (["logs", name], .file (Utf8.encode before))] }
        here := []
        session := { Session.initial with log := { toFiles := true, form := .text "simple" } } }
    let skipped : LanguageResult :=
      { language := "debug", path := "logs/debug.log", state := .unknownLanguage,
        error := some ("ERR_UNKNOWN_LANGUAGE", "No translations defined for 'debug'") }
    let written : LanguageResult :=
      { language := "fr", path := "logs/info.log", state := .filled, filled := 1, written := true }
    let x := (fillLanguage table (o ".log") "debug" : StateM Surroundings _) (s "debug.log")
    let y := (fillLanguage table (o "/../info.log") "fr" : StateM Surroundings _) (s "info.log")
    (∀ name, FileOptions.IsUsual (.of (s name).session.files)) ∧
      (x.1 = .ok skipped ∧ skipped.written = false ∧
        x.2.tree.content? ["logs", "debug.log"] ≠
          (s "debug.log").tree.content? ["logs", "debug.log"]) ∧
      y.1 = .ok written ∧ written.written = true ∧
        y.2.tree.content? ["logs", "info.log"] ≠
          some (Utf8.encode (FilledText.of table before "fr").content) := by
  refine ⟨fun _ => ⟨rfl, rfl⟩, ⟨eq_ok_of_toOption ?_, rfl, ?_⟩, eq_ok_of_toOption ?_, rfl, ?_⟩ <;>
    decide +kernel

/-! ### Where there is no result -/

theorem FilledText.check_eq_crash [Readers] {path message : Text}
    (h : f.check path o = .error (.crash message)) :
    o.verifies = true ∧ verify f.content f.outcome.fills = none ∧
      .crash message = checkBrokenOff := by
  rw [check] at h
  split at h
  · cases h
  · next hverifies =>
    refine ⟨by simpa using hverifies, ?_⟩
    split at h
    · next hnone =>
      cases h
      exact ⟨hnone, rfl⟩
    · split at h <;> cases h

theorem FilledText.conclude_eq_error [Readers] {failure : Failure}
    (h : ((f.conclude r o : StateM Surroundings _) s).1 = .error failure) :
    o.verifies = true ∧ failure = checkBrokenOff ∧ verify f.content f.outcome.fills = none := by
  rw [conclude, bind_apply] at h
  by_cases hzero : f.outcome.filled = 0
  · rw [if_pos hzero] at h
    cases h
  · rw [if_neg hzero] at h
    dsimp only at h
    cases hcheck : f.check r.path o with
    | ok _ =>
        rw [hcheck] at h
        cases h
    | error reason =>
        rw [hcheck] at h
        cases reason with
        | fault fault => cases h
        | crash message =>
            cases h
            obtain ⟨hverifies, hnone, hmessage⟩ := check_eq_crash hcheck
            exact ⟨hverifies, hmessage, hnone⟩

/-- A language ends without a result only if the check of its filled text breaks off. -/
theorem fillLanguage_eq_error [Readers] {failure : Failure}
    (h : ((fillLanguage table o language : StateM Surroundings _) s).1 = .error failure) :
    o.verifies = true ∧ failure = checkBrokenOff ∧ ∃ t,
      verify (FilledText.of table t language).content
        (FilledText.of table t language).outcome.fills = none := by
  rcases fillLanguage_cases table o language s with
    ⟨state, fault, -, hx⟩ | ⟨fault, hx⟩ | ⟨bytes, t, -, -, hx⟩ <;> rw [hx] at h
  · cases h
  · cases h
  · obtain ⟨hverifies, hfailure, hnone⟩ := FilledText.conclude_eq_error h
    exact ⟨hverifies, hfailure, t, hnone⟩

/-! ### What every result is about -/

theorem FilledText.save_about : ((f.save r o : StateM Surroundings _) s).1.language = r.language ∧
    ((f.save r o : StateM Surroundings _) s).1.path = r.path := by
  rw [save, bind_apply]
  cases o.writes with
  | false => exact ⟨rfl, rfl⟩
  | true =>
      rw [if_neg (by simp), bind_apply]
      generalize (writeText r.path f.content none : StateM Surroundings _) _ = outcome
      obtain ⟨done, s'⟩ := outcome
      cases done <;> exact ⟨rfl, rfl⟩

theorem FilledText.conclude_about [Readers] {result : LanguageResult}
    (h : ((f.conclude r o : StateM Surroundings _) s).1 = .ok result) :
    result.language = r.language ∧ result.path = r.path := by
  rw [conclude, bind_apply] at h
  by_cases hzero : f.outcome.filled = 0
  · rw [if_pos hzero] at h
    cases h
    exact ⟨rfl, rfl⟩
  · rw [if_neg hzero] at h
    dsimp only at h
    cases hcheck : f.check r.path o with
    | ok _ =>
        rw [hcheck] at h
        cases h
        exact FilledText.save_about
    | error reason =>
        rw [hcheck] at h
        cases reason with
        | crash message => cases h
        | fault fault =>
            cases h
            exact ⟨rfl, rfl⟩

/-- The result of a language is about this language and its catalog. -/
theorem fillLanguage_about [Readers] {result : LanguageResult}
    (h : ((fillLanguage table o language : StateM Surroundings _) s).1 = .ok result) :
    result.language = language ∧ result.path = Path.catalog o.directory language o.extension := by
  rcases fillLanguage_cases table o language s with
    ⟨state, fault, -, hx⟩ | ⟨fault, hx⟩ | ⟨bytes, t, -, -, hx⟩ <;> rw [hx] at h
  · cases h
    exact ⟨rfl, rfl⟩
  · cases h
    exact ⟨rfl, rfl⟩
  · exact FilledText.conclude_about h

/-! ### Languages whose catalogs are not to be written -/

theorem FilledText.sparing_save {path : Text} (hlog : start.LogsApart path)
    (hwrites : o.writes = false) (f : FilledText) (r : LanguageResult) :
    Sparing path start (f.save r o) := by
  rw [save]
  refine (sparing_warnOfLines hlog _ _ _).bind fun _ => ?_
  rw [hwrites]
  exact (Sparing.record hlog _ _ _).bind fun _ => .pure _

theorem FilledText.sparing_conclude [Readers] {path : Text} (hlog : start.LogsApart path)
    (hwrites : o.writes = false) (f : FilledText) (r : LanguageResult) :
    Sparing path start (f.conclude r o) := by
  rw [conclude]
  refine (sparing_warnOfLines hlog _ _ _).bind fun _ => ?_
  split
  · exact .pure _
  · split
    · exact .pure _
    · exact ((Sparing.record hlog _ _ _).bind fun _ => .pure _).bind fun _ => .pure _
    · exact (sparing_save hlog hwrites f _).bind fun _ => .pure _

/-- If no catalog is to be written, every file is spared but those of the log. -/
theorem sparing_fillLanguage [Readers] {path : Text} (hlog : start.LogsApart path)
    (hwrites : o.writes = false) (table : Table) (language : Text) :
    Sparing path start (fillLanguage table o language) := by
  intro s h
  have hpass : start.Keeps path s.pass := ⟨h.tree, h.here, h.files, h.log⟩
  have hpass' : start.Keeps path s.pass.pass := ⟨h.tree, h.here, h.files, h.log⟩
  rcases fillLanguage_cases table o language s with
    ⟨state, fault, -, hx⟩ | ⟨fault, hx⟩ | ⟨bytes, t, -, -, hx⟩ <;> rw [hx]
  · exact Sparing.record hlog _ _ _ s.pass hpass
  · exact Sparing.record hlog _ _ _ s.pass.pass hpass'
  · exact FilledText.sparing_conclude hlog hwrites _ _ s.pass.pass hpass'

end GettextFill
