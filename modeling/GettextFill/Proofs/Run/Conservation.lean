import GettextFill.Proofs.Fill.Count
import GettextFill.Proofs.Run.Language

/-!
# What a result says of the work that is left

A result tells how many entries were filled and how many are left without a target. The two come
from different sources: what is left is counted on the text that was filled in memory, and stays in
the result when that text is then refused or cannot be written, while the number of filled entries
is set back to zero.

`LanguageResult.Counts` says what the numbers of a result are in each state, and is proved once for
every way to end. `fillLanguage_conserves_iff` compares them with the count before the fill: they
add up to it if the fills that are told are those that read back as something, and no others.
-/

namespace GettextFill

variable {table : Table} {o : FillOptions} {language path t : Text} {s : Surroundings}
  {r : LanguageResult} {f : FilledText}

/-- There is a file at a path when it is looked for, and a text when it is read. -/
def Surroundings.Offers (s : Surroundings) (path t : Text) : Prop :=
  ((pathExists path : StateM Surroundings Bool) s).1 = true ∧
    ((readText path none : StateM Surroundings _)
      ((pathExists path : StateM Surroundings Bool) s).2).1 = .ok t

/-- The numbers in the result of a language that was read and filled. -/
structure LanguageResult.Counts (f : FilledText) (r : LanguageResult) : Prop where
  untranslated : r.untranslated = f.remaining.untranslated
  filled : r.state = .unchanged ∧ r.filled = 0 ∧ f.outcome.filled = 0 ∨
    r.state = .filled ∧ r.filled = f.outcome.filled ∨
      r.state = .failed ∧ r.filled = 0

/-! ### Every way to end -/

theorem FilledText.counts_save (hr : r.untranslated = f.remaining.untranslated) :
    ((f.save r o : StateM Surroundings _) s).1.Counts f := by
  rw [save, bind_apply]
  cases o.writes with
  | false => exact ⟨hr, Or.inr (Or.inl ⟨rfl, rfl⟩)⟩
  | true =>
      rw [if_neg (by simp), bind_apply]
      generalize (writeText r.path f.content none : StateM Surroundings _) _ = outcome
      obtain ⟨done, s'⟩ := outcome
      cases done with
      | error fault => exact ⟨hr, Or.inr (Or.inr ⟨rfl, rfl⟩)⟩
      | ok done => exact ⟨hr, Or.inr (Or.inl ⟨rfl, rfl⟩)⟩

theorem FilledText.counts_conclude [Readers] (hstate : r.state = .unchanged) (hfilled : r.filled = 0)
    {result : LanguageResult}
    (h : ((f.conclude r o : StateM Surroundings _) s).1 = .ok result) : result.Counts f := by
  rw [conclude, bind_apply] at h
  by_cases hzero : f.outcome.filled = 0
  · rw [if_pos hzero] at h
    cases h
    exact ⟨rfl, Or.inl ⟨hstate, hfilled, hzero⟩⟩
  · rw [if_neg hzero] at h
    dsimp only at h
    cases hcheck : f.check r.path o with
    | ok _ =>
        rw [hcheck] at h
        cases h
        exact FilledText.counts_save rfl
    | error reason =>
        rw [hcheck] at h
        cases reason with
        | crash message => cases h
        | fault fault =>
            cases h
            exact ⟨rfl, Or.inr (Or.inr ⟨rfl, rfl⟩)⟩

/-- A language whose catalog is there and can be read goes on to fill it. -/
theorem fillLanguage_of_offers [Readers] (hlanguage : table.hasLanguage language = true)
    (h : s.Offers (Path.catalog o.directory language o.extension) t) :
    ∃ s', (fillLanguage table o language : StateM Surroundings _) s =
      ((FilledText.of table t language).conclude
        { language, path := Path.catalog o.directory language o.extension } o :
          StateM Surroundings _) s' := by
  obtain ⟨hfound, hread⟩ := h
  rw [fillLanguage, bind_apply, hfound, hlanguage, if_neg (by decide), if_neg (by decide),
    bind_apply, hread]
  exact ⟨_, rfl⟩

/-! ### The balance -/

/-- What a fill takes off the entries without a target are the fills that read back as something. -/
theorem Catalog.untranslated_fill {d : Document} (htable : Table.ofDocument d = .ok table)
    (c : Catalog) (language : Text) :
    ((c.fill table language).status table language).untranslated + c.gained table language =
      (c.status table language).untranslated := by
  have hinit : ({} : Status).Advanced {} 0 0 := ⟨rfl, rfl, rfl, rfl, rfl, rfl⟩
  have hrun := (hinit.foldl (Table.lookup_nil htable language) c.entries).untranslated
  rwa [Nat.zero_add] at hrun

theorem Catalog.filled_outcome (c : Catalog) (table : Table) (language : Text) :
    (c.outcome table language).filled =
      (c.entries.filter fun e => e.IsDue table language).length := by
  rw [Outcome.filled, filledSources_outcome, List.length_map]

/-- All fills of a catalog read back as something. -/
theorem Catalog.gained_eq_filled_iff (c : Catalog) :
    (c.outcome table language).filled = c.gained table language ↔
      ∀ e ∈ c.entries, e.IsDue table language → e.Gains table language := by
  rw [filled_outcome, gained, eq_comm, List.countP_eq_length]
  simp only [List.mem_filter, decide_eq_true_eq, and_imp]

/-- No fill of a catalog reads back as something. -/
theorem Catalog.gained_eq_zero_iff (c : Catalog) :
    0 = c.gained table language ↔
      ∀ e ∈ c.entries, e.IsDue table language → ¬ e.Gains table language := by
  rw [gained, eq_comm, List.countP_eq_zero]
  simp only [List.mem_filter, decide_eq_true_eq, and_imp]

/-- The entries that a result tells as filled and those that it tells as left add up to those that
were without a target before exactly if all fills of a language that was filled read back as
something, and none of a language that failed. -/
theorem fillLanguage_conserves_iff [Readers] {d : Document} (htable : Table.ofDocument d = .ok table)
    (hlanguage : table.hasLanguage language = true)
    (hoffers : s.Offers (Path.catalog o.directory language o.extension) t)
    {result : LanguageResult}
    (h : ((fillLanguage table o language : StateM Surroundings _) s).1 = .ok result) :
    result.filled + result.untranslated =
        ((Catalog.ofText t).status table language).untranslated ↔
      (result.state = .filled → ∀ e ∈ (Catalog.ofText t).entries,
        e.IsDue table language → e.Gains table language) ∧
      (result.state = .failed → ∀ e ∈ (Catalog.ofText t).entries,
        e.IsDue table language → ¬ e.Gains table language) := by
  obtain ⟨s', hx⟩ := fillLanguage_of_offers (o := o) hlanguage hoffers
  rw [hx] at h
  obtain ⟨huntranslated, hfilled⟩ := FilledText.counts_conclude rfl rfl h
  -- both sides come down to the number of filled entries in the result
  have hbalance : result.filled + result.untranslated =
        ((Catalog.ofText t).status table language).untranslated ↔
      result.filled = (Catalog.ofText t).gained table language := by
    rw [huntranslated, ← Catalog.untranslated_fill htable, Nat.add_comm]
    exact Nat.add_left_cancel_iff
  rw [hbalance]
  rcases hfilled with ⟨hstate, hzero, hnone⟩ | ⟨hstate, hall⟩ | ⟨hstate, hzero⟩
  · have hdue := (FilledText.filled_eq_zero_iff t).mp hnone
    rw [hstate, hzero, Catalog.gained_eq_zero_iff]
    simp +contextual [hdue]
  · change result.filled = ((Catalog.ofText t).outcome table language).filled at hall
    rw [hstate, hall, Catalog.gained_eq_filled_iff]
    simp
  · rw [hstate, hzero, Catalog.gained_eq_zero_iff]
    simp

/-- Of two entries without a target one is filled and one is left. -/
theorem fillLanguage_conserves_remaining :
    let d : Document := .object [("fr", .object [("a", .text "A")])]
    let table : Table := { sections := [("fr", [("a", "A")])] }
    let o : FillOptions := { directory := "po", extension := ".po", languages := [] }
    let t : Text := "msgid \"a\"\nmsgstr \"\"\n\nmsgid \"b\"\nmsgstr \"\"\n"
    let s : Surroundings :=
      { tree := { nodes := [(["po"], .directory), (["po", "fr.po"], .file (Utf8.encode t))] }
        here := [] }
    let r : LanguageResult :=
      { language := "fr", path := "po/fr.po", state := .filled, filled := 1, untranslated := 1,
        written := true }
    Table.ofDocument d = .ok table ∧ table.hasLanguage "fr" = true ∧
      s.Offers (Path.catalog o.directory "fr" o.extension) t ∧
      ((fillLanguage table o "fr" : StateM Surroundings _) s).1 = .ok r ∧
      r.filled + r.untranslated = ((Catalog.ofText t).status table "fr").untranslated := by
  intro d table o t s r
  have htable : Table.ofDocument d = .ok table := rfl
  have hoffers : s.Offers (Path.catalog o.directory "fr" o.extension) t :=
    ⟨by decide +kernel, eq_ok_of_toOption (by decide +kernel)⟩
  have hr : ((fillLanguage table o "fr" : StateM Surroundings _) s).1 = .ok r :=
    eq_ok_of_toOption (by decide +kernel)
  exact ⟨htable, rfl, hoffers, hr,
    (fillLanguage_conserves_iff htable rfl hoffers hr).mpr (by decide +kernel)⟩

/-- An entry is told neither as filled nor as left when the backup of its catalog cannot be made, and
an entry whose target is empty is told as both. -/
theorem fillLanguage_not_conserved :
    let d (v : Text) : Document := .object [("fr", .object [("a", .text v)])]
    let table (v : Text) : Table := { sections := [("fr", [("a", v)])] }
    let o : FillOptions := { directory := "po", extension := ".po", languages := [] }
    let t : Text := "msgid \"a\"\nmsgstr \"\"\n"
    let s : Surroundings :=
      { tree :=
          { nodes :=
              [(["po"], .directory), (["po", "fr.po"], .file (Utf8.encode t)), (["x"], .file [])] }
        here := [] }
    let backingUp : Surroundings :=
      { s with
        session :=
          { Session.initial with
            files := (Session.defaultFiles.insert "backupFiles" (.bool true)).insert "backupDir"
              (.text "x") } }
    let failed : LanguageResult :=
      { language := "fr", path := "po/fr.po", state := .failed, filled := 0, untranslated := 0,
        error := some ("ERR_CATALOG_WRITE_FAILED",
          "Failed to write catalog po/fr.po: EEXIST: file already exists, mkdir 'x'") }
    let filled : LanguageResult :=
      { language := "fr", path := "po/fr.po", state := .filled, filled := 1, untranslated := 1,
        written := true }
    (∀ v, Table.ofDocument (d v) = .ok (table v)) ∧
      (backingUp.Offers (Path.catalog o.directory "fr" o.extension) t ∧
        ((fillLanguage (table "A") o "fr" : StateM Surroundings _) backingUp).1 = .ok failed ∧
        failed.filled + failed.untranslated <
          ((Catalog.ofText t).status (table "A") "fr").untranslated) ∧
      s.Offers (Path.catalog o.directory "fr" o.extension) t ∧
        ((fillLanguage (table []) o "fr" : StateM Surroundings _) s).1 = .ok filled ∧
        ((Catalog.ofText t).status (table []) "fr").untranslated <
          filled.filled + filled.untranslated := by
  refine ⟨fun _ => rfl, ⟨⟨?_, eq_ok_of_toOption ?_⟩, eq_ok_of_toOption ?_, ?_⟩,
    ⟨?_, eq_ok_of_toOption ?_⟩, eq_ok_of_toOption ?_, ?_⟩ <;>
    decide +kernel

end GettextFill
