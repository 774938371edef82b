import GettextFill.Document.Json
import GettextFill.Path
import GettextFill.Text.Upper

/-!
# Log lines

The log has four levels. `LogSettings.line` lays a message out in one of three forms, and the
settings say which messages reach the terminal (`LogSettings.shows`). `LogSettings.of` reads
settings that have not been checked: a value that counts as false gives way to the default, and any
other is kept as it is given, so an unknown form or level is the plain one.
-/

namespace GettextFill

/-- How much a message matters. -/
inductive LogLevel
  | error
  | warning
  | info
  | debug
  deriving DecidableEq

namespace LogLevel

def name : LogLevel → Text
  | error => "error"
  | warning => "warning"
  | info => "info"
  | debug => "debug"

def mark (level : LogLevel) : Text := Text.toUpper level.name

/-- The name of the file that messages of a level go to. -/
def fileName : LogLevel → Text
  | error => "errors.log"
  | warning => "warnings.log"
  | info => "info.log"
  | debug => "debug.log"

end LogLevel

/-- How messages are logged. -/
structure LogSettings where
  verbose : Document := .bool false
  diagnostics : Document := .text "minimal"
  form : Document := .text "pretty"
  toFiles : Bool := false
  directory : Text := "./logs"
  timestamps : Bool := true
  deriving Inhabited

namespace LogSettings

/-- A value that counts as true, or the default in its place. -/
def either (d : Option Document) (default : Document) : Document :=
  match d with
  | some d => if d.truthy then d else default
  | none => default

/-- Log settings from fields. The directory has to be a text. -/
def of? (fields : Dictionary Document) : Option LogSettings :=
  match either (fields.get? "logDirectory") (.text "./logs") with
  | .text directory =>
    some
      { verbose := either (fields.get? "verbose") (.bool false)
        diagnostics := either (fields.get? "diagnosticsLevel") (.text "minimal")
        form := either (fields.get? "outputFormat") (.text "pretty")
        toFiles := match fields.get? "saveErrorLogs" with
          | some (.bool true) => true
          | _ => false
        directory
        timestamps := match fields.get? "includeTimestamps" with
          | some (.bool false) => false
          | _ => true }
  | _ => none

def isVerbose (s : LogSettings) : Bool := s.verbose.truthy

/-- Whether the amount of diagnostics is the one named. -/
def tells (s : LogSettings) (amount : Text) : Bool := s.diagnostics.text? = some amount

def file (s : LogSettings) (level : LogLevel) : Text := Path.join [s.directory, level.fileName]

def isJson (s : LogSettings) : Bool := s.form.text? = some "json"

/-- A message with its data as JSON. A level or a message that is not given is left out. -/
def jsonLine (time : Option Text) (level message data : Option Document) : Text :=
  let given (key : Text) (d : Option Document) : Dictionary Document :=
    d.toList.map fun d => (key, d)
  Json.write (.object
    (given "timestamp" (some ((time.map Document.text).getD .null)) ++ given "level" level ++
      given "message" message ++ given "data" (some (data.getD .null))))

/-- A message with its data in one of three forms: as JSON, bare, or for reading. -/
def line (s : LogSettings) (time : Option Text) (level message : Text) (data : Option Document) :
    Text :=
  if s.isJson then jsonLine time (some (.text level)) (some (.text message)) data
  else
    let head := ('[' :: Text.inUpperCase level) ++ "] " ++ message
    if s.form.text? = some "simple" then head
    else
      (match time with
        | some time => ('[' :: time) ++ "] "
        | none => []) ++ head ++
        match data with
        | some d => if d.truthy then '\n' :: Json.writeIndented d else []
        | none => []

/-- Whether a message of a level reaches the terminal. -/
def shows (s : LogSettings) : LogLevel → Bool
  | .error => true
  | .warning => true
  | .info => !s.tells "minimal" || s.isVerbose
  | .debug => s.isVerbose || s.tells "detailed"

/-- Whether the data of a message reach the terminal with it. -/
def showsData (s : LogSettings) (level : LogLevel) (data : Option Document) : Bool :=
  Document.isSet data && (s.isVerbose || level = .debug)

end LogSettings

end GettextFill
