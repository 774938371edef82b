import GettextFill.Run.Language

/-!
# All languages of a run

The languages of a run are filled one after the other, in the order in which they are asked for or,
if none is, in the order of the table. A language that fails does not keep the next from being
filled.
-/

namespace GettextFill

variable {m : Type → Type} [Monad m] [Host m] [Readers]

/-- Fill the catalogs of languages one after the other and add the results to a report. -/
def fillEach (fill : Text → m (Except Failure LanguageResult)) (report : FillReport) :
    List Text → m (Except Failure FillReport)
  | [] => return .ok report
  | language :: rest => do
    match ← fill language with
    | .error failure => return .error failure
    | .ok result => fillEach fill (report.record result) rest

/-- Fill the catalogs of all languages of a run. -/
def fillAll (table : Table) (o : FillOptions) : m (Except Failure FillReport) :=
  fillEach (fillLanguage table o) { dryRun := o.dryRun } (table.chosen o.languages)

/-- Count what there is to fill in the catalogs of all languages of a run. -/
def inspectAll (table : Table) (o : FillOptions) : m (List StatusReport) :=
  (table.chosen o.languages).mapM (inspectLanguage table o)

end GettextFill
