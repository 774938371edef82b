import GettextFill.Fill

/-!
# Reports

A run leaves one result for every language. `FillReport` gathers them with their totals,
`FillReport.text` and `StatusReport.text` are what is printed at the end of a run.
-/

namespace GettextFill

/-- What became of the catalog of a language. -/
inductive LanguageState
  | filled
  | unchanged
  | missingFile
  | unknownLanguage
  | failed
  deriving DecidableEq

def LanguageState.text : LanguageState → Text
  | filled => "filled"
  | unchanged => "unchanged"
  | missingFile => "missing-file"
  | unknownLanguage => "unknown-language"
  | failed => "failed"

/-- The result of filling the catalog of a language. -/
structure LanguageResult where
  language : Text
  path : Text
  state : LanguageState := .unchanged
  filled : Nat := 0
  /-- Entries without a target after the fill. -/
  untranslated : Nat := 0
  /-- Whether the catalog was written. -/
  written : Bool := false
  /-- The numbers of lines that belong to no entry. -/
  ignored : List Nat := []
  /-- Code and message of what went wrong. -/
  error : Option (Text × Text) := none
  deriving DecidableEq

/-- The results of a run with their totals. -/
structure FillReport where
  languages : List LanguageResult := []
  totalFilled : Nat := 0
  languageCount : Nat := 0
  failed : Nat := 0
  skipped : Nat := 0
  dryRun : Bool := false
  deriving DecidableEq

namespace FillReport

def record (r : FillReport) (result : LanguageResult) : FillReport :=
  { r with
    languages := r.languages ++ [result]
    languageCount := r.languageCount + 1
    totalFilled := r.totalFilled + result.filled
    failed := if result.state = .failed then r.failed + 1 else r.failed
    skipped :=
      if result.state = .missingFile || result.state = .unknownLanguage then r.skipped + 1
      else r.skipped }

end FillReport

/-- The line of a skipped catalog that is not there. -/
def missingLine (path : Text) : Text := ("  SKIP: " : Text) ++ path ++ " not found"

def unknownLine (language : Text) : Text :=
  ("  SKIP: No translations defined for '" : Text) ++ language ++ "'"

def failedLine (language message : Text) : Text :=
  ("  FAIL: " : Text) ++ language ++ ": " ++ message

def filledLine (language filled : Text) : Text :=
  ("  " : Text) ++ language ++ ": filled " ++ filled ++ " translations"

def LanguageResult.line (r : LanguageResult) : Text :=
  match r.state with
  | .missingFile => missingLine r.path
  | .unknownLanguage => unknownLine r.language
  | .failed => failedLine r.language ((r.error.map Prod.snd).getD "unknown error")
  | _ => filledLine r.language (Text.ofNat r.filled)

/-- The lines of results with their totals below. The number of failures is given if there are any.
-/
def reportText (lines : List Text) (filled count : Text) (dryRun : Bool) (failed : Option Text) :
    Text :=
  let total : Text :=
    ("Total: " : Text) ++ filled ++ " translations filled across " ++ count ++ " languages"
  let dry : List Text := if dryRun then ["Dry run: no catalogs were written"] else []
  let failures : List Text := (failed.map fun (n : Text) => n ++ " language(s) failed").toList
  Text.join ['\n'] (lines ++ [[], total] ++ dry ++ failures)

def FillReport.text (r : FillReport) : Text :=
  reportText (r.languages.map LanguageResult.line) (Text.ofNat r.totalFilled)
    (Text.ofNat r.languageCount) r.dryRun
    (if 0 < r.failed then some (Text.ofNat r.failed) else none)

/-- How far the catalog of a language is translated, or why that is not known. -/
structure StatusReport where
  language : Text
  path : Text
  found : Bool
  /-- Whether the table has a section for the language. -/
  known : Bool
  status : Option Status := none
  error : Option Text := none
  deriving DecidableEq

def countsText (entries translated untranslated plural fillable : Text) : Text :=
  entries ++ " entries, " ++ translated ++ " translated, " ++ untranslated ++ " untranslated, " ++
    plural ++ " plural, " ++ fillable ++ " fillable"

def Status.text (s : Status) : Text :=
  countsText (Text.ofNat s.entries) (Text.ofNat s.translated) (Text.ofNat s.untranslated)
    (Text.ofNat s.plural) (Text.ofNat s.fillable)

/-- What is said of a catalog that is not there. -/
def notFound (path : Text) : Text := path ++ " not found"

/-- What is said of a catalog that was counted. -/
def counted (counts : Text) (known : Bool) : Text :=
  counts ++ if known then [] else " (not in translation table)"

def languageLine (language words : Text) : Text := ("  " : Text) ++ language ++ ": " ++ words

namespace StatusReport

/-- The line of a report. An error without a message is none. -/
def line (r : StatusReport) : Text :=
  languageLine r.language
    (if !r.found then notFound r.path
    else
      match r.error, r.status with
      | some (c :: message), _ => c :: message
      | _, none => "no data"
      | _, some s => counted s.text r.known)

def text (reports : List StatusReport) : Text := Text.join ['\n'] (reports.map line)

end StatusReport

end GettextFill
