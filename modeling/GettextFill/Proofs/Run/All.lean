import GettextFill.Proofs.Run.Language
import GettextFill.Run.All
import Mathlib.Algebra.GroupWithZero.Nat

/-!
# How a run ends

A run over many languages goes on after every language that ends with a result, whatever that says.
It ends early only where the check of a filled text breaks off (`fillAll_eq_error`), so a run that
checks nothing always ends with a report.

A report has one result for every language, in the order of the languages, and its totals are those
of its results (`fillAll_accounts`).
-/

namespace GettextFill

variable {fill : Text → StateM Surroundings (Except Failure LanguageResult)}

/-- A run that ends early does so at one of its languages. -/
theorem fillEach_eq_error {report : FillReport} {languages : List Text} {failure : Failure}
    {s : Surroundings} (h : (fillEach fill report languages s).1 = .error failure) :
    ∃ language ∈ languages, ∃ s', (fill language s').1 = .error failure := by
  induction languages generalizing report s with
  | nil => cases h
  | cons language rest ih =>
      rw [fillEach, bind_apply] at h
      rcases hfill : fill language s with ⟨result, s'⟩
      rw [hfill] at h
      cases result with
      | error e =>
          cases h
          exact ⟨language, List.mem_cons_self, s, by rw [hfill]⟩
      | ok result =>
          obtain ⟨other, hother, hfailed⟩ := ih h
          exact ⟨other, List.mem_cons_of_mem language hother, hfailed⟩

/-- A run ends early only if the check of a filled text breaks off. -/
theorem fillAll_eq_error [Readers] {table : Table} {o : FillOptions} {failure : Failure} {s : Surroundings}
    (h : ((fillAll table o : StateM Surroundings _) s).1 = .error failure) :
    o.verifies = true ∧ failure = checkBrokenOff ∧ ∃ language ∈ table.chosen o.languages, ∃ t,
      verify (FilledText.of table t language).content
        (FilledText.of table t language).outcome.fills = none := by
  obtain ⟨language, hlanguage, s', hfailed⟩ := fillEach_eq_error h
  obtain ⟨hverifies, hfailure, ht⟩ := fillLanguage_eq_error hfailed
  exact ⟨hverifies, hfailure, language, hlanguage, ht⟩

/-! ### Steps of a run -/

/-- Languages that are filled one after the other, each with a result. -/
inductive FillSteps (fill : Text → StateM Surroundings (Except Failure LanguageResult)) :
    Surroundings → List Text → List LanguageResult → Surroundings → Prop
  | nil (s : Surroundings) : FillSteps fill s [] [] s
  | cons {s s' s'' : Surroundings} {language : Text} {rest : List Text} {result : LanguageResult}
      {results : List LanguageResult} (step : fill language s = (.ok result, s'))
      (steps : FillSteps fill s' rest results s'') :
      FillSteps fill s (language :: rest) (result :: results) s''

theorem fillEach_eq_ok_iff {report report' : FillReport} {languages : List Text}
    {s s' : Surroundings} :
    fillEach fill report languages s = (.ok report', s') ↔
      ∃ results, FillSteps fill s languages results s' ∧
        report' = results.foldl FillReport.record report := by
  induction languages generalizing report s with
  | nil =>
      constructor
      · intro h
        cases h
        exact ⟨[], .nil _, rfl⟩
      · rintro ⟨results, hsteps, rfl⟩
        cases hsteps
        rfl
  | cons language rest ih =>
      rw [fillEach, bind_apply]
      constructor
      · intro h
        rcases hfill : fill language s with ⟨outcome, s₁⟩
        rw [hfill] at h
        cases outcome with
        | error e => cases h
        | ok result =>
            obtain ⟨results, hsteps, hreport⟩ := ih.mp h
            exact ⟨result :: results, .cons hfill hsteps, hreport⟩
      · rintro ⟨results, hsteps, hreport⟩
        cases hsteps with
        | cons step steps =>
            rw [step]
            exact ih.mpr ⟨_, steps, hreport⟩

theorem FillSteps.languages {languages : List Text} {results : List LanguageResult}
    {s s' : Surroundings} (h : FillSteps fill s languages results s')
    (habout : ∀ language s result, (fill language s).1 = .ok result → result.language = language) :
    results.map LanguageResult.language = languages := by
  induction h with
  | nil s => rfl
  | cons step steps ih =>
      rw [List.map_cons, ih, habout _ _ _ (congrArg Prod.fst step)]

/-! ### Totals -/

namespace FillReport

/-- Totals that are those of the results. -/
structure IsTotal (r : FillReport) : Prop where
  filled : r.totalFilled = (r.languages.map LanguageResult.filled).sum
  count : r.languageCount = r.languages.length
  failed : r.failed = r.languages.countP fun result => result.state = .failed
  skipped : r.skipped = r.languages.countP fun result =>
    result.state = .missingFile || result.state = .unknownLanguage

theorem IsTotal.record {r : FillReport} (h : r.IsTotal) (result : LanguageResult) :
    (r.record result).IsTotal := by
  obtain ⟨hfilled, hcount, hfailed, hskipped⟩ := h
  constructor
  · simp [FillReport.record, hfilled]
  · simp [FillReport.record, hcount]
  · simp only [FillReport.record, hfailed, List.countP_append, List.countP_singleton,
      decide_eq_true_eq]
    split <;> rfl
  · simp only [FillReport.record, hskipped, List.countP_append, List.countP_singleton]
    split <;> rfl

theorem isTotal_foldl_record (results : List LanguageResult) {r : FillReport} (h : r.IsTotal) :
    (results.foldl record r).IsTotal := by
  induction results generalizing r with
  | nil => exact h
  | cons result results ih => exact ih (h.record result)

@[simp] theorem languages_foldl_record (results : List LanguageResult) (r : FillReport) :
    (results.foldl record r).languages = r.languages ++ results := by
  induction results generalizing r with
  | nil => simp
  | cons result results ih => simp [ih, record]

@[simp] theorem dryRun_foldl_record (results : List LanguageResult) (r : FillReport) :
    (results.foldl record r).dryRun = r.dryRun := by
  induction results generalizing r with
  | nil => rfl
  | cons result results ih => simp [ih, record]

/-- A report of a run over the languages that were asked for: one result for each, in their order,
with the totals of these. -/
structure Accounts [Readers] (r : FillReport) (table : Table) (o : FillOptions) (s s' : Surroundings) :
    Prop where
  steps : FillSteps (fillLanguage table o) s (table.chosen o.languages) r.languages s'
  languages : r.languages.map LanguageResult.language = table.chosen o.languages
  totals : r.IsTotal
  dryRun : r.dryRun = o.dryRun

end FillReport

variable {table : Table} {o : FillOptions} {s s' : Surroundings}

theorem fillAll_accounts [Readers] {report : FillReport}
    (h : (fillAll table o : StateM Surroundings _) s = (.ok report, s')) :
    report.Accounts table o s s' := by
  obtain ⟨results, hsteps, rfl⟩ := fillEach_eq_ok_iff.mp h
  have hlanguages := hsteps.languages fun _ _ _ hresult => (fillLanguage_about hresult).1
  refine ⟨?_, ?_, FillReport.isTotal_foldl_record results ⟨rfl, rfl, rfl, rfl⟩, ?_⟩
  · simpa using hsteps
  · simpa using hlanguages
  · simp

/-! ### Runs that write no catalog -/

theorem sparing_fillEach {path : Text} {start : Surroundings}
    (hfill : ∀ language, Sparing path start (fill language)) (report : FillReport)
    (languages : List Text) : Sparing path start (fillEach fill report languages) := by
  induction languages generalizing report with
  | nil => exact .pure _
  | cons language rest ih =>
      rw [fillEach]
      refine (hfill language).bind fun outcome => ?_
      split
      · exact .pure _
      · exact ih _

theorem sparing_fillAll [Readers] {path : Text} {start : Surroundings}
    (hlog : start.LogsApart path) (hwrites : o.writes = false) (table : Table) : Sparing path start (fillAll table o) :=
  sparing_fillEach (sparing_fillLanguage hlog hwrites table) _ _

theorem readsOnly_inspectLanguage (table : Table) (o : FillOptions) (language : Text) :
    ReadsOnly (inspectLanguage table o language : StateM Surroundings _) := by
  rw [inspectLanguage]
  refine (readsOnly_pathExists _).bind fun found => ?_
  split
  · exact .pure _
  · refine (readsOnly_readText _).bind fun outcome => ?_
    split <;> exact .pure _

theorem readsOnly_mapM {α β : Type} {f : α → StateM Surroundings β} (hf : ∀ a, ReadsOnly (f a))
    (as : List α) : ReadsOnly (as.mapM f) := by
  induction as with
  | nil => exact .pure _
  | cons a as ih =>
      rw [List.mapM_cons]
      exact (hf a).bind fun _ => ih.bind fun _ => .pure _

theorem readsOnly_inspectAll (table : Table) (o : FillOptions) :
    ReadsOnly (inspectAll table o : StateM Surroundings _) :=
  readsOnly_mapM (readsOnly_inspectLanguage table o) _

end GettextFill
