import GettextFill.Document

/-!
# Faults

A fault is a failure that the program knows about. It has a stable code, the details it came about
with, and a message that is made from them. `FaultKind` lists what can go wrong, each with what may
be the reasons and what helps; `Fault.format` lays a fault out for the terminal.

Details are a document, because a message quotes them as they are: a detail that is missing or empty
is quoted as `unknown` or by another word of the message's choice. Details that have no one-line
form make no fault where they are to be quoted.
-/

namespace GettextFill

/-- What can go wrong. -/
inductive FaultKind
  | catalogNotFound
  | unknownLanguage
  | catalogUnreadable
  | catalogUnwritable
  | outputUnverified
  | tableNotFound
  | tableInvalid
  | inputInvalid
  | settingsInvalid
  deriving DecidableEq

namespace FaultKind

def label : FaultKind → Text
  | catalogNotFound => "CATALOG_NOT_FOUND"
  | unknownLanguage => "UNKNOWN_LANGUAGE"
  | catalogUnreadable => "CATALOG_READ_FAILED"
  | catalogUnwritable => "CATALOG_WRITE_FAILED"
  | outputUnverified => "OUTPUT_VERIFICATION_FAILED"
  | tableNotFound => "TABLE_NOT_FOUND"
  | tableInvalid => "TABLE_INVALID"
  | inputInvalid => "INVALID_INPUT"
  | settingsInvalid => "CONFIG_VALIDATION"

def all : List FaultKind :=
  [catalogNotFound, unknownLanguage, catalogUnreadable, catalogUnwritable, outputUnverified,
    tableNotFound, tableInvalid, inputInvalid, settingsInvalid]

def ofLabel? (label : Text) : Option FaultKind := all.find? fun kind => kind.label = label

def codeOf (label : Text) : Text := "ERR_" ++ label

def code (kind : FaultKind) : Text := codeOf kind.label

def quote (details : Document) (key : Text) (missing : Text) : Text :=
  match details.get? key with
  | none => missing
  | some .null => missing
  | some d => if d.plain.isEmpty && (d.text?).isSome then missing else d.plain

theorem quote_of_text {details : Document} {key t : Text} (h : details.get? key = some (.text t))
    (ht : t ≠ []) (missing : Text) : quote details key missing = t := by
  simp [quote, h, ht]

def message (kind : FaultKind) (details : Document) : Text :=
  let file := quote details "filePath" "unknown"
  let reason := quote details "reason" "unknown"
  match kind with
  | catalogNotFound => "Catalog not found: " ++ file
  | unknownLanguage =>
    ("No translations defined for '" : Text) ++ quote details "language" "unknown" ++ "'"
  | catalogUnreadable => ("Failed to read catalog " : Text) ++ file ++ ": " ++ reason
  | catalogUnwritable => ("Failed to write catalog " : Text) ++ file ++ ": " ++ reason
  | outputUnverified =>
    ("Rebuilt catalog " : Text) ++ file ++ " did not verify: " ++
      quote details "problems" "no details"
  | tableNotFound => "Translation table not found: " ++ file
  | tableInvalid => ("Invalid translation table " : Text) ++ file ++ ": " ++ reason
  | inputInvalid => quote details "field" "input" ++ ' ' :: quote details "reason" "is invalid"
  | settingsInvalid => "Configuration validation failed:\n" ++ quote details "errors" []

/-- The details that the message of a kind quotes. -/
def quoted : FaultKind → List Text
  | catalogNotFound => ["filePath"]
  | unknownLanguage => ["language"]
  | catalogUnreadable => ["filePath", "reason"]
  | catalogUnwritable => ["filePath", "reason"]
  | outputUnverified => ["filePath", "problems"]
  | tableNotFound => ["filePath"]
  | tableInvalid => ["filePath", "reason"]
  | inputInvalid => ["field", "reason"]
  | settingsInvalid => ["errors"]

/-- Whether details that are to be quoted have a one-line form. -/
def canQuote (details : Document) (keys : List Text) : Bool :=
  keys.all fun key => ((details.get? key).map Document.isQuotable).getD true

def reasons : FaultKind → List Text
  | catalogNotFound =>
    ["No catalog has been created for this language yet",
      "The catalog directory or file extension is misconfigured"]
  | unknownLanguage => ["The translation table has no section for this language"]
  | catalogUnreadable =>
    ["The file is not readable by the current user", "The path is a directory"]
  | catalogUnwritable => ["The directory is not writable", "The disk is full"]
  | outputUnverified =>
    ["The original catalog contains syntax gettext tools reject",
      "A translation contains characters that could not be encoded"]
  | tableNotFound => ["`translationsFile` points to a missing file"]
  | tableInvalid =>
    ["The file is not valid JSON or YAML",
      "A language section is not a mapping of source string to translation"]
  | inputInvalid => ["A command-line option or configuration value is malformed"]
  | settingsInvalid => ["pofill.config contains invalid values"]

def remedies : FaultKind → List Text
  | catalogNotFound =>
    ["Check `catalogDir` and `extension` in pofill.config",
      "Create the catalog with msginit before filling it"]
  | unknownLanguage =>
    ["Add the language to the translation table",
      "Remove the language from `languages` in pofill.config"]
  | catalogUnreadable => ["Check the permissions of the catalog file"]
  | catalogUnwritable =>
    ["Check the permissions of the catalog directory",
      "Free disk space and run the fill again"]
  | outputUnverified =>
    ["Run `msgfmt --check` on the original catalog",
      "Re-run with --no-verify to write the catalog anyway"]
  | tableNotFound => ["Check `translationsFile` in pofill.config or pass --translations"]
  | tableInvalid =>
    ["Use the shape \x7b \"<language>\": \x7b \"<source>\": \"<translation>\" \x7d \x7d",
      "Remove empty source strings; the empty msgid is the catalog header"]
  | inputInvalid => ["Check the value against `pofill --help`"]
  | settingsInvalid => ["Run `pofill validate-config` after fixing the listed values"]

end FaultKind

/-- A failure that the program knows about. -/
structure Fault where
  label : Text
  code : Text
  message : Text
  details : Document
  deriving Inhabited

namespace Fault

def of (kind : FaultKind) (details : Document) : Fault :=
  { label := kind.label, code := kind.code, message := kind.message details, details }

/-- A fault of a kind with details that may have no one-line form. -/
def of? (kind : FaultKind) (details : Document) : Option Fault :=
  if FaultKind.canQuote details kind.quoted then some (of kind details) else none

/-- A fault of a name, which may be that of no kind. A fault without a kind says what its details
say. -/
def named? (label : Text) (details : Document) : Option Fault :=
  match FaultKind.ofLabel? label with
  | some kind => of? kind details
  | none =>
    if FaultKind.canQuote details ["message"] then
      some
        { label := "UNKNOWN", code := FaultKind.codeOf "UNKNOWN",
          message := FaultKind.quote details "message" "Unknown error", details }
    else none

def catalogNotFound (path language : Text) : Fault :=
  of .catalogNotFound (.object [("filePath", .text path), ("language", .text language)])

def unknownLanguage (language : Text) : Fault :=
  of .unknownLanguage (.object [("language", .text language)])

/-- The details of a failed access: the reason, and the code of the system if there is one. -/
def accessDetails (path reason : Text) (errno : Option Text) : Document :=
  let basics : Dictionary Document := [("filePath", .text path), ("reason", .text reason)]
  match errno with
  | some code => .object (basics.insert "errno" (.text code))
  | none => .object basics

def unreadable (path reason : Text) (errno : Option Text) : Fault :=
  of .catalogUnreadable (accessDetails path reason errno)

def unwritable (path reason : Text) (errno : Option Text) : Fault :=
  of .catalogUnwritable (accessDetails path reason errno)

def unverified (path : Text) (problems : List Text) : Fault :=
  of .outputUnverified
    (.object [("filePath", .text path), ("problems", .text (Text.join "; " problems))])

def tableNotFound (path : Text) : Fault := of .tableNotFound (.object [("filePath", .text path)])

def tableInvalid (path reason : Text) : Fault :=
  of .tableInvalid (.object [("filePath", .text path), ("reason", .text reason)])

def inputInvalid (field reason : Text) : Fault :=
  of .inputInvalid (.object [("field", .text field), ("reason", .text reason)])

/-- Lines that each stand for an item of their own. -/
def bulleted (lines : List Text) : List Text := lines.map fun line => ("  - " : Text) ++ line

/-- Settings have flaws, each told on a line of its own. -/
def settingsInvalid (flaws : List Text) : Fault :=
  of .settingsInvalid
    (.object [("errors", .text (Text.join ['\n'] (bulleted flaws)))])

/-- What of a fault is shown. -/
structure Display where
  debug : Bool := false
  remedies : Bool := true
  reasons : Bool := true

def numbered (start : Nat) : List Text → List Text
  | [] => []
  | remedy :: rest =>
    (("  " : Text) ++ Text.ofNat start ++ ". " ++ remedy) :: numbered (start + 1) rest

/-- The lines of a part of the layout under its title. -/
def part (title : Text) (lines : List Text) : List Text := [] :: title :: lines

/-- The lines that show where a fault comes from: its details, and the trace of calls if it has
one. -/
def debugLines (details : Dictionary Document) (trace : Text) : List Text :=
  part "Debug Info:" (details.map fun (key, d) => ("  " : Text) ++ key ++ ": " ++ d.plain) ++
    if trace.isEmpty then [] else [[], trace]

/-- A fault laid out for the terminal. There is no layout that shows missing details, or details
without a one-line form. -/
def format (f : Fault) (display : Display) (trace : Text) : Option Text :=
  let kind := FaultKind.ofLabel? f.label
  let head : List Text :=
    [('[' :: f.code) ++ "] " ++ f.label, [], "Problem:", "  " ++ f.message]
  let reasons := match kind with
    | some kind =>
      if display.reasons then part "Why This Happened:" (bulleted kind.reasons) else []
    | none => []
  let remedies := match kind with
    | some kind => if display.remedies then part "How to Fix:" (numbered 1 kind.remedies) else []
    | none => []
  if display.debug then
    let details := f.details.parts?.filter fun details => details.values.all Document.isQuotable
    details.map fun details =>
      Text.join ['\n'] (head ++ reasons ++ remedies ++ debugLines details trace)
  else some (Text.join ['\n'] (head ++ reasons ++ remedies))

end Fault

/-- How an action can fail: by a fault, or by an error that it has not foreseen. -/
inductive Failure
  | fault (f : Fault)
  | crash (message : Text)
  deriving Inhabited

namespace Failure

def message : Failure → Text
  | fault f => f.message
  | crash message => message

def format (failure : Failure) (display : Fault.Display) (trace : Text) : Option Text :=
  match failure with
  | fault f => f.format display trace
  | crash message => some ("Error: " ++ message)

end Failure

end GettextFill
