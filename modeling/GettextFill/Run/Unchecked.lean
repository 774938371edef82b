import GettextFill.Fill.Unchecked
import GettextFill.Run.All

/-!
# Runs with sections that were not checked

A run with sections that callers have made themselves is a run with a table, but it ends at a
catalog with an entry that would be filled with a value that is no text.
-/

namespace GettextFill

variable {m : Type → Type} [Monad m] [Host m] [Readers]

/-- What a run breaks off with at a value that is no text. -/
def valueNotText : Failure := .crash "a value to be filled in is no text"

/-- Whether filling the catalog of a language breaks off. A catalog that is not filled at all does
not. -/
def breaksOff (s : Sections Document) (o : FillOptions) (language : Text) : m Bool := do
  if !s.hasLanguage language then return false
  let path := Path.catalog o.directory language o.extension
  if !(← pathExists path) then return false
  match ← readText path none with
  | .error _ => return false
  | .ok t => return !(Catalog.ofText t).isFit s language

/-- Fill the catalog of a language, unless that breaks off. -/
def fillUnchecked (s : Sections Document) (o : FillOptions) (language : Text) :
    m (Except Failure LanguageResult) := do
  if ← breaksOff s o language then return .error valueNotText
  fillLanguage s.asTable o language

/-- Fill the catalogs of all languages of a run, up to the first that breaks off. -/
def fillAllUnchecked (s : Sections Document) (o : FillOptions) :
    m (Except Failure FillReport) :=
  fillEach (fillUnchecked s o) { dryRun := o.dryRun } (s.chosen o.languages)

end GettextFill
