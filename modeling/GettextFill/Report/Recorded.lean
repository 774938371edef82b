import GettextFill.Report

/-!
# Reports that were written down

Results and reports may come from elsewhere, written down as documents. They are taken as they are:
a field that is missing is quoted as `undefined`, a state that is not known counts as that of a
catalog that was filled. `Recorded.Tally` adds results up, and the texts below it are those of
reports that a run makes itself. There is none where something is null that has to have fields, or
where a field is quoted that has no one-line form.
-/

namespace GettextFill.Recorded

/-- A document that may have fields; null has none to ask for. -/
def given? : Option Document → Option Document
  | none => none
  | some .null => none
  | d => d

def quoted? (d : Document) (key : Text) : Option Text :=
  match d.get? key with
  | none => some "undefined"
  | some d => d.quoted?

/-- Whether a field is there and counts as true. -/
def isSet (d : Document) (key : Text) : Bool := Document.isSet (d.get? key)

def list? (d : Document) (key : Text) : Option (List Document) :=
  match d.get? key with
  | some (.list items) => some items
  | _ => none

/-! ### Results -/

/-- The state of a result, if it is one of those that are told apart. -/
def state (result : Document) : LanguageState :=
  let states : List LanguageState := [.missingFile, .unknownLanguage, .failed]
  (states.find? fun s => (result.get? "status").bind Document.text? = some s.text).getD .filled

def failureText? (result : Document) : Option Text :=
  match ((given? (result.get? "error")).bind fun e => given? (e.get? "message")) with
  | none => some "unknown error"
  | some d => d.quoted?

def line? (result : Document) : Option Text := do
  let result ← given? (some result)
  match state result with
  | .missingFile => return missingLine (← quoted? result "filePath")
  | .unknownLanguage => return unknownLine (← quoted? result "language")
  | .failed => return failedLine (← quoted? result "language") (← failureText? result)
  | _ => return filledLine (← quoted? result "language") (← quoted? result "filled")

/-- Results added up. -/
structure Tally where
  results : List Document := []
  /-- The sum of what was filled; texts are put one after the other instead. -/
  totalFilled : Document := .number (Number.ofNat 0)
  failed : Nat := 0
  skipped : Nat := 0
  dryRun : Document := .bool false

/-- The sum of two values. It is a text if one of them is no single value or a text. -/
def sum? (total : Document) (more : Option Document) : Option Document :=
  let asText : Option Document := do
    return .text ((← total.quoted?) ++ (← (more.map Document.quoted?).getD (some "undefined")))
  match total, more with
  | .text _, _ => asText
  | _, some (.text _) => asText
  | _, some (.list _) => asText
  | _, some (.object _) => asText
  | total, more =>
    let number (d : Option Document) : Number := (Document.count? d).getD .undefined
    some (.number ((number (some total)).add (number more)))

def Tally.record? (t : Tally) (result : Option Document) : Option Tally := do
  let result ← given? result
  let totalFilled ← sum? t.totalFilled (result.get? "filled")
  let state := state result
  return { t with
    results := t.results ++ [result]
    totalFilled
    failed := if state = .failed then t.failed + 1 else t.failed
    skipped :=
      if state = .missingFile || state = .unknownLanguage then t.skipped + 1 else t.skipped }

/-! ### Reports -/

def text? (report : Option Document) : Option Text := do
  let report ← given? report
  let lines ← (← list? report "languages").mapM line?
  let hasFailed := ((Document.count? (report.get? "failed")).map Number.isPositive).getD false
  let failed ← if hasFailed then (quoted? report "failed").map some else pure none
  return reportText lines (← quoted? report "totalFilled") (← quoted? report "languageCount")
    (isSet report "dryRun") failed

def counts? (status : Document) : Option Text := do
  return countsText (← quoted? status "entries") (← quoted? status "translated")
    (← quoted? status "untranslated") (← quoted? status "plural") (← quoted? status "fillable")

def statusLine? (report : Document) : Option Text := do
  let report ← given? (some report)
  let words ←
    if !isSet report "found" then (quoted? report "filePath").map notFound
    else if isSet report "error" then quoted? report "error"
    else if !isSet report "status" then pure "no data"
    else
      (counts? ((report.get? "status").getD .null)).map fun counts =>
        counted counts (isSet report "knownLanguage")
  return languageLine (← quoted? report "language") words

/-- Statuses as they are printed, one a line. -/
def statusText? (reports : List Document) : Option Text :=
  (reports.mapM statusLine?).map (Text.join ['\n'])

end GettextFill.Recorded
