import GettextFill.CommandLine.Suggestion
import GettextFill.CommandLine.Switch
import GettextFill.Run.Command

/-!
# The command line

A command line names a command and its options. The switches of the program may stand anywhere on
it, those of a command after its name; without a name the command is to fill. `CommandLine.of` reads
a command line: what it announces on the way, and what it asks for.
-/

namespace GettextFill

/-- What is wrong with a command line. -/
inductive CommandLineFlaw
  | missingArgument (s : Switch)
  | unknownSwitch (flag : Text) (known : List Text)
  deriving DecidableEq

def CommandLineFlaw.message : CommandLineFlaw → Text
  | missingArgument s => ("error: option '" : Text) ++ s.usage ++ "' argument missing"
  | unknownSwitch flag known =>
    ("error: unknown option '" : Text) ++ flag ++ "'" ++ Suggestion.text flag known

/-- What a command line asks for. -/
inductive Request
  | version
  | help
  | run (command : Command) (options : Options)
  | validate
  | refuse (flaw : CommandLineFlaw)

/-- What a switch of the program turns on. -/
inductive Mode
  | debug
  | verbose
  deriving DecidableEq

/-- A command line that was read. -/
structure CommandLine where
  /-- What was turned on, in order. -/
  modes : List Mode
  request : Request

namespace CommandLine

/-! ### Switches -/

def versionSwitch : Switch := { short := some 'V', long := "version" }

def debugSwitch : Switch := { long := "debug" }

def verboseSwitch : Switch := { long := "verbose" }

def programSwitches : List Switch := [versionSwitch, debugSwitch, verboseSwitch]

/-- The switches of all commands on catalogs, with the names of their options. -/
def catalogSwitches : List (Switch × Text) :=
  [({ short := some 'd', long := "dir", argument := some "dir".toList }, "dir"),
    ({ short := some 'l', long := "languages", argument := some "langs".toList }, "languages"),
    ({ short := some 't', long := "translations", argument := some "file".toList },
      "translations"),
    ({ short := some 'e', long := "extension", argument := some "ext".toList }, "extension")]

def fillSwitches : List (Switch × Text) :=
  [({ long := "dry-run" }, "dryRun"), ({ long := "no-verify" }, "verify"),
    ({ long := "backup" }, "backup")]

/-- The switch that asks for help. Every command has it. -/
def helpSwitch : Switch := { short := some 'h', long := "help" }

/-- The commands that a command line can name. -/
inductive Name
  | catalogs (command : Command)
  | validate

def name? (word : Text) : Option Name :=
  if word = "fill" then some (.catalogs .fill)
  else if word = "status" then some (.catalogs .status)
  else if word = "validate-config" then some .validate
  else none

/-- The switches of a command with the names of their options. -/
def switchesOf : Name → List (Switch × Text)
  | .catalogs .fill => catalogSwitches ++ fillSwitches
  | .catalogs .status => catalogSwitches
  | .validate => []

/-! ### Options -/

/-- The value of an option with an argument. Languages are separated by commas. -/
def optionValue (name value : Text) : Document :=
  if name = "languages" then .list ((value.splitOn ',').map .text)
  else .text value

/-- The value of an option without an argument: whether it turns something on. -/
def flagValue (name : Text) : Document := .bool (name ≠ "verify".toList)

def optionsOf (known : List (Switch × Text)) (found : List (Switch × Text)) : Options :=
  found.foldl (fun options (s, value) =>
    match known.find? fun entry => entry.1 = s with
    | none => options
    | some (_, name) =>
      options.insert name (if s.takesArgument then optionValue name value else flagValue name)) []

def modeOptions (modes : List Mode) : Options :=
  [("debug".toList, .bool (modes.contains .debug)),
    ("verbose".toList, .bool (modes.contains .verbose))]

/-! ### Reading -/

def asksForHelp (words : List Text) : Bool := words.any fun word => helpSwitch.isNamed word

/-- What a command with the words after it asks for. -/
def requestOf (name : Name) (modes : List Mode) (words : List Text) : Request :=
  let known := switchesOf name
  let switches := known.map Prod.fst
  let sorted := Sorted.of switches words
  match sorted.missing, sorted.unknown with
  | some s, _ => .refuse (.missingArgument s)
  | none, flag :: _ =>
    if asksForHelp sorted.unknown then .help
    else
      .refuse (.unknownSwitch flag
        ((switches ++ helpSwitch :: programSwitches).map Switch.long))
  | none, [] =>
    match name with
    | .validate => .validate
    | .catalogs command =>
      .run command (modeOptions modes ++ optionsOf known sorted.found)

/-- The mode that a switch of the program turns on. -/
def modeOf? (s : Switch) : Option Mode :=
  if s = debugSwitch then some .debug
  else if s = verboseSwitch then some .verbose
  else none

/-- Read a command line. The version is asked for by the first switch that says so, and then nothing
else is. -/
def of (words : List Text) : CommandLine :=
  let sorted := Sorted.of programSwitches words
  let switches := sorted.found.map Prod.fst
  let modes := (switches.takeWhile fun s => s ≠ versionSwitch).filterMap modeOf?
  let request : Request :=
    if switches.contains versionSwitch then .version
    else
      match sorted.operands.head?.bind name? with
      | some name => requestOf name modes sorted.unknown
      | none =>
        if sorted.operands.head? = some "help".toList || asksForHelp sorted.unknown then .help
        else requestOf (.catalogs .fill) modes sorted.unknown
  { modes, request }

end CommandLine

end GettextFill
