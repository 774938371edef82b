import GettextFill.Proofs.Fill.Basic
import GettextFill.Proofs.Language
import GettextFill.Proofs.Table
import GettextFill.Run.Command
import Mathlib.Data.List.Nodup

/-!
# What checked settings come to

Settings that pass all checks always give what the filling of catalogs needs
(`Settings.exists_fillOptions`): an extension of the right form, and languages each of which is a
code when it is trimmed. The trimmed languages without repetitions, however, are what becomes of the
languages of a command line only. Those of a settings file and those of a table are checked and then
taken as they are given.

`Settings.chosen_canonical_iff` says what this means for the languages of a run: when they are codes,
each only once.
-/

namespace GettextFill

theorem nodup_eraseDups (ls : List Text) : ls.eraseDups.Nodup := by
  induction ls using List.reverseRecOn with
  | nil => exact .nil
  | append_singleton ls l ih =>
      rw [eraseDups_append_singleton]
      split
      · exact ih
      · next hl =>
        refine List.nodup_append.mpr ⟨ih, List.nodup_singleton l, ?_⟩
        rintro a ha b hb rfl
        rw [List.mem_singleton] at hb
        subst hb
        exact hl (List.mem_eraseDups.mp ha)

/-! ### Given languages -/

namespace Input

theorem text?_eq_some {given : Option Document} {t : Text} (h : text? given = some t) :
    given = some (.text t) := by
  unfold text? at h
  split at h
  · split at h
    · cases h
    · cases h
      rfl
  · cases h

theorem language_eq_ok {given : Option Document} {code : Text} (h : language given = .ok code) :
    ∃ t, given = some (.text t) ∧ code = Text.trim t ∧ Language.isCode (Text.trim t) = true := by
  rw [language] at h
  split at h
  · cases h
  · next t ht =>
    split at h
    · next hcode =>
      cases h
      exact ⟨t, text?_eq_some ht, rfl, hcode⟩
    · cases h

theorem languageItems_eq_ok {items : List Document} {codes : List Text}
    (h : languageItems items = .ok codes) :
    ∃ ls : List Text, items = ls.map .text ∧ codes = ls.map Text.trim ∧
      ∀ l ∈ ls, Language.isCode (Text.trim l) = true := by
  induction items generalizing codes with
  | nil =>
      cases h
      exact ⟨[], rfl, rfl, fun _ hl => absurd hl List.not_mem_nil⟩
  | cons item items ih =>
      rw [languageItems] at h
      split at h
      · cases h
      · next code hcode =>
        obtain ⟨t, ht, rfl, hisCode⟩ := language_eq_ok hcode
        cases ht
        cases hrest : languageItems items with
        | error flaw =>
            rw [hrest] at h
            cases h
        | ok rest =>
            rw [hrest] at h
            cases h
            obtain ⟨ls, rfl, rfl, hls⟩ := ih hrest
            exact ⟨t :: ls, rfl, rfl, List.forall_mem_cons.mpr ⟨hisCode, hls⟩⟩

theorem languages_eq_ok {given : Document} {codes : List Text}
    (h : languages (some given) = .ok codes) :
    ∃ ls : List Text, given = .list (ls.map .text) ∧ codes = (ls.map Text.trim).eraseDups ∧
      ∀ l ∈ ls, Language.isCode (Text.trim l) = true := by
  cases given with
  | list items =>
      cases hitems : languageItems items with
      | error flaw =>
          rw [languages, hitems] at h
          cases h
      | ok codes' =>
          rw [languages, hitems] at h
          cases h
          obtain ⟨ls, rfl, rfl, hls⟩ := languageItems_eq_ok hitems
          exact ⟨ls, rfl, rfl, hls⟩
  | _ => cases h

theorem path_eq_ok {given : Option Document} {p : Text} (h : path given = .ok p) :
    ∃ t, given = some (.text t) := by
  rw [path] at h
  split at h
  · cases h
  · next t ht => exact ⟨t, text?_eq_some ht⟩

theorem extension_eq_ok {given : Option Document} {e : Text} (h : extension given = .ok e) :
    given = some (.text e) ∧ isExtension e = true := by
  unfold extension at h
  split at h
  · split at h
    · next hext =>
      cases h
      exact ⟨rfl, hext⟩
    · cases h
  · cases h

end Input

/-- What filling catalogs needs, as far as it is checked. -/
structure FillOptions.Checked (o : FillOptions) : Prop where
  extension : Input.isExtension o.extension = true
  languages : ∀ l ∈ o.languages, Language.isCode (Text.trim l) = true

namespace Settings

variable {settings run : Settings} {options : Options}

/-! ### The settings of a run -/

theorem flaw_eq_nil {α : Type} {field : Text} {x : Except InputFlaw α} (h : flaw field x = []) :
    ∃ a, x = .ok a := by
  cases x with
  | ok a => exact ⟨a, rfl⟩
  | error flaw => cases h

theorem texts?_map_text (ls : List Text) : texts? (ls.map .text) = some ls := by
  induction ls with
  | nil => rfl
  | cons l ls ih => rw [List.map_cons, texts?, ih, Option.map_some]

theorem map_text_inj {ls ms : List Text} (h : ls.map Document.text = ms.map .text) : ls = ms := by
  have htexts := congrArg texts? h
  rw [texts?_map_text, texts?_map_text] at htexts
  exact Option.some.inj htexts

theorem checkedRun_eq_ok (h : settings.checkedRun options = .ok run) :
    Settings.run settings options = .ok run ∧ run.flaws = [] := by
  rw [checkedRun] at h
  split at h
  · cases h
  · next run' hrun =>
    split at h
    · cases h
    · next hcheck =>
      cases h
      refine ⟨hrun, ?_⟩
      rw [check] at hcheck
      split at hcheck
      · next hempty => exact List.isEmpty_iff.mp hempty
      · cases hcheck

/-- The languages of a run are those of the command line in their checked form, or those that the
settings name. -/
theorem run_eq_ok (h : Settings.run settings options = .ok run) :
    ∃ languages, runLanguages settings options = .ok languages ∧
      run.get? "languages" = some languages := by
  rw [Settings.run] at h
  split at h
  · cases h
  · next languages hlanguages =>
    cases h
    refine ⟨languages, hlanguages, ?_⟩
    rw [Dictionary.get?_foldl_insert]
    rfl

theorem flaws_eq_nil (h : run.flaws = []) :
    (∃ p, Input.path (run.get? "catalogDir") = .ok p) ∧
      (∃ e, Input.extension (run.get? "extension") = .ok e) ∧
      ∀ given, run.get? "languages" = some given →
        ∃ codes, Input.languages (some given) = .ok codes := by
  rw [flaws, List.append_eq_nil_iff, List.append_eq_nil_iff, List.append_eq_nil_iff,
    List.append_eq_nil_iff] at h
  obtain ⟨⟨⟨⟨hdirectory, hextension⟩, -⟩, hlanguages⟩, -⟩ := h
  refine ⟨flaw_eq_nil hdirectory, flaw_eq_nil hextension, fun given hgiven => ?_⟩
  rw [hgiven] at hlanguages
  exact flaw_eq_nil hlanguages

/-- Checked settings give what filling catalogs needs. -/
theorem exists_fillOptions (h : settings.checkedRun options = .ok run) (here : Text) :
    ∃ o, run.fillOptions? here = some o ∧ o.Checked ∧
      runLanguages settings options = .ok (.list (o.languages.map .text)) := by
  obtain ⟨hrun, hflaws⟩ := checkedRun_eq_ok h
  obtain ⟨given, hrunLanguages, hgiven⟩ := run_eq_ok hrun
  obtain ⟨⟨p, hp⟩, ⟨e, he⟩, hcodes⟩ := flaws_eq_nil hflaws
  obtain ⟨directory, hdirectory⟩ := Input.path_eq_ok hp
  obtain ⟨hextension, hisExtension⟩ := Input.extension_eq_ok he
  obtain ⟨codes, hcodes⟩ := hcodes given hgiven
  obtain ⟨ls, rfl, -, hls⟩ := Input.languages_eq_ok hcodes
  refine ⟨{ directory := Path.resolve here directory, extension := e, languages := ls,
            dryRun := isTrue (run.get? "dryRun"),
            verifies := !isFalse (run.get? "verifyOutput") }, ?_, ⟨hisExtension, hls⟩,
    hrunLanguages⟩
  rw [fillOptions?, directory?, hdirectory, hextension, hgiven]
  dsimp only [Option.bind_some, Option.map_some, Document.text?]
  rw [texts?_map_text]
  rfl

end Settings

/-! ### The languages of a run -/

namespace Table

/-- The languages of a table are those that its document names, and they are checked. -/
theorem languages_of_ofDocument {d : Document} {table : Table} (h : ofDocument d = .ok table) :
    table.languages = d.fields.keys ∧
      ∀ l ∈ table.languages, Language.isCode (Text.trim l) = true := by
  obtain ⟨rfl, hproper⟩ := ofDocument_eq_ok_iff.mp h
  refine ⟨table.languages_eq, fun l hl => ?_⟩
  obtain ⟨p, hp, rfl⟩ := List.mem_map.mp hl
  obtain ⟨code, hcode⟩ := (hproper p hp).1
  obtain ⟨t, ht, -, hisCode⟩ := Input.language_eq_ok hcode
  cases ht
  exact hisCode

end Table

/-- Languages that are codes, each only once. -/
def Language.AreCanonical (ls : List Text) : Prop := ls.Nodup ∧ ∀ l ∈ ls, isCode l = true

/-- Languages that are codes when they are trimmed are canonical if there is nothing to trim and
each is there once. -/
theorem Language.areCanonical_iff {ls : List Text} (h : ∀ l ∈ ls, isCode (Text.trim l) = true) :
    AreCanonical ls ↔ ls.Nodup ∧ ∀ l ∈ ls, Text.trim l = l :=
  and_congr_right fun _ => forall₂_congr fun l hl => isCode_iff_trim_eq_self (h l hl)

/-- What becomes of given languages when they are checked is canonical. -/
theorem Language.areCanonical_eraseDups {ls : List Text}
    (h : ∀ l ∈ ls, isCode (Text.trim l) = true) :
    AreCanonical (ls.map Text.trim).eraseDups := by
  refine ⟨nodup_eraseDups _, fun l hl => ?_⟩
  obtain ⟨m, hm, rfl⟩ := List.mem_map.mp (List.mem_eraseDups.mp hl)
  exact h m hm

namespace Settings

variable {settings run : Settings} {options : Options} {d : Document} {table : Table}

/-- The languages that a command line names, as they are used. -/
theorem areCanonical_of_options {given : Document} {ls : List Text}
    (hgiven : options.get? "languages" = some given)
    (h : runLanguages settings options = .ok (.list (ls.map .text))) :
    Language.AreCanonical ls ∧ ∃ items, given = .list items ∧ (items = [] ↔ ls = []) := by
  rw [runLanguages, hgiven] at h
  dsimp only at h
  cases hcodes : Input.languages (some given) with
  | error flaw =>
      rw [hcodes] at h
      cases h
  | ok codes =>
      obtain ⟨ms, rfl, rfl, hms⟩ := Input.languages_eq_ok hcodes
      rw [hcodes] at h
      have hsame : (ms.map Text.trim).eraseDups = ls :=
        map_text_inj (Document.list.inj (Except.ok.inj h))
      subst hsame
      refine ⟨Language.areCanonical_eraseDups hms, _, rfl, ?_⟩
      cases ms <;> simp [List.eraseDups_cons]

theorem runLanguages_of_settings {items : List Document} (hnone : options.get? "languages" = none)
    (h : settings.get? "languages" = some (.list items)) :
    runLanguages settings options = .ok (.list items) := by
  rw [runLanguages, hnone, resolve, h]
  rfl

/-- The languages that a settings file names are taken as they are given. -/
theorem get?_of_runLanguages {ls : List Text} (hnone : options.get? "languages" = none)
    (h : runLanguages settings options = .ok (.list (ls.map .text))) (hne : ls ≠ []) :
    settings.get? "languages" = some (.list (ls.map .text)) := by
  rw [runLanguages, hnone] at h
  have hlist : resolve settings none "languages" = .list (ls.map .text) := Except.ok.inj h
  have hdefault (hnil : Document.list [] = .list (ls.map .text)) : False :=
    hne (List.map_eq_nil_iff.mp (Document.list.inj hnil).symm)
  cases hgiven : settings.get? "languages" with
  | none =>
      rw [resolve, hgiven] at hlist
      exact (hdefault hlist).elim
  | some given =>
      rw [resolve, hgiven] at hlist
      cases given with
      | null => exact (hdefault hlist).elim
      | list items => exact congrArg some hlist
      | _ => cases hlist

/-- The languages of a run are codes, each only once, if the command line names them. Those that the
settings name have to be so already, and so do those of the table if no others are named. -/
theorem chosen_canonical_iff (hrun : settings.checkedRun options = .ok run)
    (hkeys : d.fields.keys.Nodup) (htable : Table.ofDocument d = .ok table) (here : Text) :
    ∃ o, run.fillOptions? here = some o ∧
      (Language.AreCanonical (table.chosen o.languages) ↔
        (∃ items, items ≠ [] ∧ options.get? "languages" = some (.list items)) ∨
        (options.get? "languages" = none ∧ ∃ ls : List Text, ls ≠ [] ∧
          settings.get? "languages" = some (.list (ls.map .text)) ∧ ls.Nodup ∧
            ∀ l ∈ ls, Text.trim l = l) ∨
        (o.languages = [] ∧ ∀ key ∈ d.fields.keys, Text.trim key = key)) := by
  obtain ⟨o, ho, hchecked, hlanguages⟩ := exists_fillOptions hrun here
  obtain ⟨htableKeys, htableCodes⟩ := Table.languages_of_ofDocument htable
  refine ⟨o, ho, ?_⟩
  by_cases hasked : o.languages = []
  · -- nothing is asked for, neither on the command line nor in the settings
    have honLine : ¬ ∃ items, items ≠ [] ∧ options.get? "languages" = some (.list items) := by
      rintro ⟨items, hne, hitems⟩
      obtain ⟨-, items', hlist, hempty⟩ := areCanonical_of_options hitems hlanguages
      cases hlist
      exact hne (hempty.mpr hasked)
    have hinSettings : ¬ (options.get? "languages" = none ∧ ∃ ls : List Text, ls ≠ [] ∧
        settings.get? "languages" = some (.list (ls.map .text)) ∧ ls.Nodup ∧
          ∀ l ∈ ls, Text.trim l = l) := by
      rintro ⟨hnone, ls, hne, hls, -⟩
      rw [runLanguages_of_settings hnone hls, hasked] at hlanguages
      exact hne (map_text_inj (Document.list.inj (Except.ok.inj hlanguages)))
    rw [or_iff_right honLine, or_iff_right hinSettings, and_iff_right hasked, hasked]
    change Language.AreCanonical table.languages ↔ _
    rw [Language.areCanonical_iff htableCodes, htableKeys]
    exact and_iff_right hkeys
  · have hchosen : table.chosen o.languages = o.languages := by
      simp [Sections.chosen, hasked]
    rw [hchosen]
    cases hgiven : options.get? "languages" with
    | some given =>
        obtain ⟨hcanonical, items, rfl, hempty⟩ := areCanonical_of_options hgiven hlanguages
        exact iff_of_true hcanonical (Or.inl ⟨items, fun hnil => hasked (hempty.mp hnil), rfl⟩)
    | none =>
        have hls := get?_of_runLanguages hgiven hlanguages hasked
        rw [Language.areCanonical_iff hchecked.languages]
        constructor
        · intro h
          exact Or.inr (Or.inl ⟨rfl, o.languages, hasked, hls, h⟩)
        · rintro (⟨items, -, hsome⟩ | ⟨-, ms, -, hms, h⟩ | ⟨hnil, -⟩)
          · cases hsome
          · rw [hls] at hms
            have hsame := map_text_inj (Document.list.inj (Option.some.inj hms))
            rwa [hsame]
          · exact absurd hnil hasked

theorem chosen_canonical_of_command_line :
    let settings : Settings := [("languages", .list [.text " de ", .text " de "])]
    let options : Options := [("languages", .list [.text " fr ", .text "fr"])]
    let d : Document := .object [(" de ", .object [("a", .text "A")])]
    ∃ run table, settings.checkedRun options = .ok run ∧ d.fields.keys.Nodup ∧
      Table.ofDocument d = .ok table ∧
      ∃ o, run.fillOptions? "/work" = some o ∧ Language.AreCanonical (table.chosen o.languages) := by
  intro settings options d
  obtain ⟨run, hrun⟩ : ∃ run, settings.checkedRun options = .ok run := by
    have hok : (settings.checkedRun options).isOk = true := by decide +kernel
    cases hrun : settings.checkedRun options with
    | error e =>
        rw [hrun] at hok
        cases hok
    | ok run => exact ⟨run, rfl⟩
  obtain ⟨table, htable⟩ : ∃ table, Table.ofDocument d = .ok table := ⟨_, rfl⟩
  have hkeys : d.fields.keys.Nodup := List.nodup_singleton _
  obtain ⟨o, ho, hiff⟩ := chosen_canonical_iff hrun hkeys htable "/work"
  exact ⟨run, table, hrun, hkeys, htable, o, ho,
    hiff.mpr (Or.inl ⟨_, List.cons_ne_nil _ _, rfl⟩)⟩

/-- Settings and a table that pass all checks and still give languages that are no codes, or one
language twice. -/
theorem not_areCanonical_chosen :
    let d : Document := .object [(" fr ", .object [("a", .text "A")])]
    ∀ given ∈ ([[], [.text " fr "], [.text "fr", .text "fr"]] : List (List Document)),
      ∃ run table o, checkedRun [("languages", .list given)] [] = .ok run ∧
        Table.ofDocument d = .ok table ∧ run.fillOptions? "/work" = some o ∧
        ¬ Language.AreCanonical (table.chosen o.languages) := by
  intro d given hgiven
  simp only [List.mem_cons, List.not_mem_nil, or_false] at hgiven
  rcases hgiven with rfl | rfl | rfl
  · refine ⟨_, _, _, rfl, rfl, rfl, fun h => ?_⟩
    exact absurd (h.2 (" fr " : Text) (by decide)) (by decide)
  · refine ⟨_, _, _, rfl, rfl, rfl, fun h => ?_⟩
    exact absurd (h.2 (" fr " : Text) (by decide)) (by decide)
  · refine ⟨_, _, _, rfl, rfl, rfl, fun h => ?_⟩
    exact absurd h.1 (by decide)

end Settings

end GettextFill
