import GettextFill.Fill
import GettextFill.Files
import GettextFill.Logger
import GettextFill.Report
import GettextFill.Verification

/-!
# One language of a run

`fillLanguage` fills the catalog of one language: it reads the file, fills the text in memory, reads
the new text again and only then replaces the file. A file that is not there and a language that the
table does not have are skipped, and a fault on the way is told in the result; in both cases the run
can go on with the next language. Only a check that breaks off ends the run.

`inspectLanguage` counts what there is to fill and writes nothing.
-/

namespace GettextFill

variable {m : Type → Type} [Monad m] [Host m] [Readers]

/-- What a run breaks off with when a check of a filled catalog does. -/
def checkBrokenOff : Failure := .crash "Cannot read properties of undefined (reading '0')"

/-- A list of line numbers as the data of a message. -/
def lineData (numbers : List Nat) : Document :=
  .object [("lines", .list (numbers.map Document.ofNat))]

/-- Warn of lines of a catalog, if there are any. -/
def warnOfLines (path : Text) (numbers : List Nat) (words : Text) : m Unit :=
  if numbers.isEmpty then return ()
  else
    record .warning (path ++ (": " : Text) ++ Text.ofNat numbers.length ++ words)
      (some (lineData numbers))

namespace LanguageResult

def skip (r : LanguageResult) (state : LanguageState) (f : Fault) : m LanguageResult := do
  record .debug f.message none
  return { r with state, error := some (f.code, f.message) }

/-- Nothing was done for a language because of a fault. -/
def fail (r : LanguageResult) (f : Fault) : m LanguageResult := do
  record .error f.message
    (some (.object [("language", .text r.language), ("code", .text f.code)]))
  return { r with
    state := .failed, filled := 0, written := false, error := some (f.code, f.message) }

/-- Something was filled in, and written if it was to be. -/
def succeed (r : LanguageResult) (outcome : Outcome) (written : Bool) : m LanguageResult := do
  record .debug
    (r.language ++ (": filled " : Text) ++ Text.join ", " outcome.filledSources) none
  return { r with state := .filled, filled := outcome.filled, written }

end LanguageResult

/-- What is wrong with a filled text: nothing, a fault, or the check breaks off. -/
def FilledText.check (f : FilledText) (path : Text) (o : FillOptions) : Except Failure Unit :=
  if !o.verifies then .ok ()
  else
    match verify f.content f.outcome.fills with
    | none => .error checkBrokenOff
    | some v => if v.valid then .ok () else .error (.fault (.unverified path v.problems))

def FilledText.save (f : FilledText) (r : LanguageResult) (o : FillOptions) : m LanguageResult := do
  warnOfLines r.path f.catalog.moved " comment line(s) inside an entry are written above it"
  if !o.writes then r.succeed f.outcome false
  else
    match ← writeText r.path f.content none with
    | .error fault => r.fail fault
    | .ok () => do
      record .info
        (r.path ++ (": wrote " : Text) ++ Text.ofNat f.outcome.filled ++ " translation(s)") none
      r.succeed f.outcome true

/-- Check a filled text and write it, unless nothing was filled in. -/
def FilledText.conclude (f : FilledText) (r : LanguageResult) (o : FillOptions) :
    m (Except Failure LanguageResult) := do
  let r : LanguageResult :=
    { r with ignored := f.catalog.ignored, untranslated := f.remaining.untranslated }
  warnOfLines r.path f.catalog.ignored " line(s) belong to no entry"
  if f.outcome.filled = 0 then return .ok r
  match f.check r.path o with
  | .error (.crash message) => return .error (.crash message)
  | .error (.fault fault) => return .ok (← r.fail fault)
  | .ok () => return .ok (← f.save r o)

def fillLanguage (table : Table) (o : FillOptions) (language : Text) :
    m (Except Failure LanguageResult) := do
  let path := Path.catalog o.directory language o.extension
  let r : LanguageResult := { language, path }
  if !(← pathExists path) then
    return .ok (← r.skip .missingFile (.catalogNotFound path language))
  if !table.hasLanguage language then
    return .ok (← r.skip .unknownLanguage (.unknownLanguage language))
  match ← readText path none with
  | .error f => return .ok (← r.fail f)
  | .ok t => (FilledText.of table t language).conclude r o

/-- Count what there is to fill in the catalog of a language. -/
def inspectLanguage (table : Table) (o : FillOptions) (language : Text) : m StatusReport := do
  let path := Path.catalog o.directory language o.extension
  let found ← pathExists path
  let report : StatusReport := { language, path, found, known := table.hasLanguage language }
  if !found then return report
  match ← readText path none with
  | .error f => return { report with error := some f.message }
  | .ok t => return { report with status := some ((Catalog.ofText t).status table language) }

end GettextFill
