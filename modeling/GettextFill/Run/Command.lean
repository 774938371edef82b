import GettextFill.Document.Json
import GettextFill.Run.All
import GettextFill.Table.File

/-!
# Commands

A command fills catalogs or counts what there is to fill. `Command.run` checks the settings, puts
them into effect, loads the table and only then turns to the catalogs, so that a fault in the
settings or in the table is told before any file has changed. `Settings.summary` does the first
steps alone and tells what a run would work with.
-/

namespace GettextFill

/-- What a run is for. -/
inductive Command
  | fill
  | status
  deriving DecidableEq

def Command.name : Command → Text
  | fill => "fill"
  | status => "status"

variable {m : Type → Type} [Monad m] [Host m] [Readers]

namespace Settings

/-- Whether settings ask for everything to be told, for the log or for all. -/
def verbosity (settings : Settings) : Document :=
  LogSettings.either (settings.nested "logging" "verbose")
    (LogSettings.either (settings.get? "verbose") (.bool false))

/-- The log settings that settings ask for, if they ask for any. -/
def logFields? (settings : Settings) : Option (Dictionary Document) :=
  if Document.isSet (settings.get? "logging") || Document.isSet (settings.get? "verbose") then
    some ((overlay [] (settings.get? "logging")).put "verbose" settings.verbosity)
  else none

/-- What settings break off with that name the directory of the log files by no text. -/
def directoryNotText : Failure := .crash "The \"path\" argument must be of type string"

def configureLogging (settings : Settings) : m (Except Failure Unit) := do
  match settings.logFields? with
  | none => return .ok ()
  | some fields =>
    match LogSettings.of? fields with
    | none => return .error directoryNotText
    | some log => return .ok (← configureLog log)

def configure (settings : Settings) : m (Except Failure Unit) := do
  configureFiles (settings.get? "fileOperations")
  match ← settings.configureLogging with
  | .error failure => return .error failure
  | .ok () =>
    if Document.isSet (settings.get? "debug") then Host.setEnvironment "DEBUG" "true"
    if settings.verbosity.truthy then Host.setEnvironment "VERBOSE" "true"
    return .ok ()

/-- The path of the table, read from a working directory. -/
def tablePath (settings : Settings) (workingDirectory : Text) : Text :=
  Path.resolve workingDirectory (((settings.get? "translationsFile").bind Document.text?).getD [])

/-- The settings of a run, if nothing is wrong with them. -/
def checkedRun (settings : Settings) (options : Options) : Except Fault Settings :=
  match run settings options with
  | .error f => .error f
  | .ok run =>
    match run.check with
    | .error f => .error f
    | .ok () => .ok run

end Settings

namespace Command

def sayLine (line : Text) : m Unit := Host.say .log [.text line]

/-- Tell what a run works with, if it is to be debugged. -/
def tellSettings (command : Command) (settings : Settings) : m Unit := do
  if Settings.isTrue (settings.get? "debug") then
    Host.say .log [.text "CLI Command:", .text command.name]
    Host.say .log [.text "Configuration:", .text (Json.writeIndented (.object settings))]

def sayStatus (table : Table) (o : FillOptions) : m Nat := do
  sayLine ("Catalog status in " ++ o.directory ++ [':'])
  sayLine (StatusReport.text (← inspectAll table o))
  return 0

/-- Fill catalogs and say what was done. The exit code is 1 if a language has failed. -/
def sayFill (table : Table) (o : FillOptions) : m (Except Failure Nat) := do
  sayLine ("Filling catalogs in " ++ o.directory)
  if o.dryRun then sayLine "Dry run: catalogs will not be written"
  match ← fillAll table o with
  | .error failure => return .error failure
  | .ok report => do
    sayLine report.text
    return .ok (if 0 < report.failed then 1 else 0)

/-- Carry a command out with checked settings that are in effect. -/
def carryOut (command : Command) (settings : Settings) : m (Except Failure Nat) := do
  let here ← Host.workingDirectory
  match ← Table.read (settings.tablePath here) with
  | .error f => return .error (.fault f)
  | .ok table =>
    match settings.fillOptions? here, command with
    | none, _ => return .error Settings.directoryNotText
    | some o, .status => return .ok (← sayStatus table o)
    | some o, .fill => sayFill table o

def run (command : Command) (settings : Settings) (options : Options) :
    m (Except Failure Nat) := do
  match settings.checkedRun options with
  | .error f => return .error (.fault f)
  | .ok settings =>
    match ← settings.configure with
    | .error failure => return .error failure
    | .ok () => do
      tellSettings command settings
      carryOut command settings

end Command

namespace Settings

def onOff (b : Bool) : Text := if b then "Enabled" else "Disabled"

def firstLanguages (languages : List Text) : Text :=
  Text.join ", " (languages.take 5) ++ if 5 < languages.length then ("..." : Text) else []

def quote (settings : Settings) (key : Text) : Text :=
  ((settings.get? key).map Document.plain).getD []

/-- What a run with checked settings and a table would work with. -/
def summaryLines (settings : Settings) (table : Table) : List Text :=
  let asked := match settings.get? "languages" with
    | some (.list items) => (texts? items).getD []
    | _ => []
  let languages := table.chosen asked
  let missing := languages.filter fun language => !table.hasLanguage language
  let warning : List Text :=
    if missing.isEmpty then []
    else [("   Warning: no translations for " : Text) ++ Text.join ", " missing]
  let lines : List Text :=
    ["Configuration Summary:",
      ("   Catalogs: " : Text) ++ settings.quote "catalogDir" ++ "/<language>" ++
        settings.quote "extension",
      ("   Translation table: " : Text) ++ settings.quote "translationsFile" ++ " (" ++
        Text.ofNat table.languages.length ++ " languages, " ++ Text.ofNat table.total ++
        " strings)",
      ("   Languages: " : Text) ++ Text.ofNat languages.length ++ " (" ++
        firstLanguages languages ++ ")",
      ("   Output verification: " : Text) ++ onOff (isTrue (settings.get? "verifyOutput")),
      ("   Atomic writes: " : Text) ++
        onOff (!isFalse (settings.nested "fileOperations" "atomic"))]
  lines ++ warning

/-- Check settings, load their table and tell what a run would work with. -/
def summary (settings : Settings) : m (Except Fault (List Text)) := do
  match settings.checkedRun [] with
  | .error f => return .error f
  | .ok settings =>
    match ← Table.read (settings.tablePath (← Host.workingDirectory)) with
    | .error f => return .error f
    | .ok table => return .ok (settings.summaryLines table)

end Settings

end GettextFill
