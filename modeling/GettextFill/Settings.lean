import GettextFill.Fault
import GettextFill.Input

/-!
# Settings

Settings are the fields of a settings file. They are not checked when they are read, so every value
is a document. `Settings.run` lays the options of a command line over them and gives every field
that a run needs a value; `Settings.flaws` lists all that is wrong with the result, and
`Settings.fillOptions?` takes from it what the filling of catalogs needs.

An option that was not passed, a field that is missing and a field that is null all give way to the
value that comes next.
-/

namespace GettextFill

/-- The fields of a settings file. -/
abbrev Settings := Dictionary Document

/-- The options of a command line under their names. -/
abbrev Options := Dictionary Document

/-- What the filling of catalogs needs to know. -/
structure FillOptions where
  /-- The directory that holds the catalogs. -/
  directory : Text
  extension : Text
  /-- The languages that are asked for; all of the table if there is none. -/
  languages : List Text
  /-- Whether the report says that no catalog was written. -/
  dryRun : Bool := false
  /-- Whether catalogs are written. -/
  writes : Bool := !dryRun
  /-- Whether a catalog is read again before it is written. -/
  verifies : Bool := true
  deriving DecidableEq

namespace Settings

/-- How files are written unless settings say otherwise. -/
def defaultFileOperations : Dictionary Document :=
  [("atomic", .bool true), ("backupFiles", .bool false), ("backupDir", .text "./backups")]

/-- The settings that hold where a settings file says nothing. -/
def defaults : Settings :=
  [("catalogDir", .text "./po"), ("extension", .text ".po"), ("languages", .list []),
    ("translationsFile", .text "./translations.json"), ("dryRun", .bool false),
    ("verifyOutput", .bool true), ("fileOperations", .object defaultFileOperations),
    ("logging", .object
      [("verbose", .bool false), ("diagnosticsLevel", .text "minimal"),
        ("saveErrorLogs", .bool false), ("logDirectory", .text "./logs")])]

def given? : Option Document → Option Document
  | some .null => none
  | d => d

def firstGiven (d e : Option Document) : Option Document :=
  match given? d with
  | some d => some d
  | none => given? e

def isTrue : Option Document → Bool
  | some (.bool true) => true
  | _ => false

def isFalse : Option Document → Bool
  | some (.bool false) => true
  | _ => false

def default (key : Text) : Document := (defaults.get? key).getD .null

/-- The value of a field of a run: the option, else the setting, else the default. -/
def resolve (settings : Settings) (option : Option Document) (key : Text) : Document :=
  (firstGiven option (settings.get? key)).getD (default key)

/-- Fields laid over others, in the order of documents. -/
def overlay (fields : Dictionary Document) (d : Option Document) : Dictionary Document :=
  ((d.bind Document.parts?).getD []).foldl (fun fields (key, d) => fields.put key d) fields

/-- The languages of a run. Those of the command line are checked at once. -/
def runLanguages (settings : Settings) (options : Options) : Except InputFlaw Document :=
  match options.get? "languages" with
  | some given => (Input.languages (some given)).map fun codes => .list (codes.map .text)
  | none => .ok (resolve settings none "languages")

def runFileOperations (settings : Settings) (options : Options) : Dictionary Document :=
  let fields := overlay defaultFileOperations (settings.get? "fileOperations")
  if Document.isSet (options.get? "backup") then fields.put "backupFiles" (.bool true) else fields

/-- The settings of a run. Fields keep the place that they have in the settings; those that are new
follow. -/
def run (settings : Settings) (options : Options) : Except Fault Settings :=
  match runLanguages settings options with
  | .error flaw => .error (.inputInvalid "--languages" flaw.reason)
  | .ok languages =>
    let either (key : Text) : Document :=
      .bool (isTrue (options.get? key) || isTrue (settings.get? key))
    let verifies := !isFalse (options.get? "verify") && !isFalse (settings.get? "verifyOutput")
    let fields : Dictionary Document :=
      [("catalogDir", resolve settings (options.get? "dir") "catalogDir"),
        ("extension", resolve settings (options.get? "extension") "extension"),
        ("languages", languages),
        ("translationsFile", resolve settings (options.get? "translations") "translationsFile"),
        ("dryRun", either "dryRun"),
        ("verifyOutput", .bool verifies),
        ("fileOperations", .object (runFileOperations settings options)),
        ("debug", either "debug"),
        ("verbose", either "verbose")]
    .ok (fields.foldl (fun settings (key, d) => settings.insert key d) settings)

/-- The flaw of a field in words, if it has one. -/
def flaw {α : Type} (field : Text) : Except InputFlaw α → List Text
  | .ok _ => []
  | .error flaw => [field ++ ' ' :: flaw.reason]

def nested (settings : Settings) (field key : Text) : Option Document :=
  (settings.get? field).bind fun d => d.get? key

def flaws (settings : Settings) : List Text :=
  flaw "catalogDir" (Input.path (settings.get? "catalogDir")) ++
    flaw "extension" (Input.extension (settings.get? "extension")) ++
    flaw "translationsFile" (Input.path (settings.get? "translationsFile")) ++
    (match settings.get? "languages" with
      | some given => flaw "languages" (Input.languages (some given))
      | none => []) ++
    if Document.isSet (settings.nested "fileOperations" "backupFiles") then
      flaw "fileOperations.backupDir" (Input.path (settings.nested "fileOperations" "backupDir"))
    else []

def check (settings : Settings) : Except Fault Unit :=
  if settings.flaws.isEmpty then .ok () else .error (.settingsInvalid settings.flaws)

/-- The texts of a list, if it holds nothing else. -/
def texts? : List Document → Option (List Text)
  | [] => some []
  | .text t :: rest => (texts? rest).map (t :: ·)
  | _ => none

/-- The directory of the catalogs, read from a working directory. -/
def directory? (settings : Settings) (workingDirectory : Text) : Option Text :=
  ((settings.get? "catalogDir").bind Document.text?).map (Path.resolve workingDirectory)

/-- What filling needs of the settings of a run, if they have the right shape. -/
def fillOptions? (settings : Settings) (workingDirectory : Text) : Option FillOptions :=
  match settings.directory? workingDirectory, settings.get? "extension",
      settings.get? "languages" with
  | some directory, some (.text extension), some (.list items) =>
    (texts? items).map fun languages =>
      { directory, extension, languages, dryRun := isTrue (settings.get? "dryRun"),
        verifies := !isFalse (settings.get? "verifyOutput") }
  | _, _, _ => none

end Settings

end GettextFill
