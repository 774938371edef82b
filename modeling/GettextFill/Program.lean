import GettextFill.CommandLine.Basic
import GettextFill.Document.Shown
import GettextFill.Readers.Standard
import GettextFill.Settings.Load

/-!
# The program

The program loads variables and settings, puts the settings into effect and does what its command
line asks for. `program` is all of it on any host, with the standard readers, and gives the exit
code; `Channel.isOutput` and `terminalLine` say how what it says reaches the terminal.
-/

namespace GettextFill

/-- Whether what is said goes to the output and not to the errors. -/
def Channel.isOutput : Channel → Bool
  | log => true
  | warn => false
  | error => false

/-- What is said at once, as a line of the terminal. -/
def terminalLine (parts : List Document) : Text :=
  Text.join [' '] (parts.map fun d =>
    match d with
    | .text t => t
    | d => d.shown) ++ ['\n']

variable {m : Type → Type} [Monad m] [Host m]

namespace Program

def version : Text := "1.0.0"

def usage : Text := "Usage: pofill [options] [command]"

def turnOn : Mode → m Unit
  | .debug => do
    Host.setEnvironment "DEBUG" "true"
    Command.sayLine "Debug mode: ENABLED (verbose logging)"
  | .verbose => do
    Host.setEnvironment "VERBOSE" "true"
    Command.sayLine "Verbose mode: ENABLED (detailed diagnostics)"

def sayError (t : Text) : m Unit := Host.say .error [.text t]

def report (failure : Failure) : m Unit := do
  match failure with
  | .crash message => sayError ("\nError: " ++ message)
  | .fault f => do
    let debug := (← Host.environment? "DEBUG") = some "true".toList
    sayError ((f.format { debug } []).getD f.message)

/-- Run a command; a failure is reported and makes the exit code 1. -/
def runCommand (command : Command) (settings : Settings) (options : Options) : m Nat := do
  match ← command.run settings options with
  | .ok code => return code
  | .error failure => do
    report failure
    return 1

/-- Check the settings and tell what a run would work with. -/
def validate (settings : Settings) : m Nat := do
  Command.sayLine "Validating configuration...\n"
  match ← settings.summary with
  | .ok lines => do
    Command.sayLine "Configuration is valid!\n"
    Command.sayLine (Text.join ['\n'] lines)
    Command.sayLine "\nRun 'pofill fill --dry-run' to preview the fill\n"
    return 0
  | .error f => do
    sayError "\nConfiguration Validation Failed:\n"
    report (.fault f)
    sayError "\nFix the errors above and try again\n"
    return 1

def answer (settings : Settings) : Request → m Nat
  | .version => do
    Command.sayLine version
    return 0
  | .help => do
    Command.sayLine usage
    return 0
  | .run command options => runCommand command settings options
  | .validate => validate settings
  | .refuse flaw => do
    sayError flaw.message
    return 1

def turnAllOn : List Mode → m Unit
  | [] => return ()
  | mode :: rest => do
    turnOn mode
    turnAllOn rest

end Program

/-- The program with the words of its command line. The result is the exit code. -/
def program (words : List Text) : m Nat := do
  let _ ← loadEnvironment
  match ← Settings.load with
  | .error flaw => do
    Program.sayError flaw.message
    return 1
  | .ok loaded =>
    match ← loaded.settings.configure with
    | .error failure => do
      Program.sayError failure.message
      return 1
    | .ok () => do
      let line := CommandLine.of words
      Program.turnAllOn line.modes
      Program.answer loaded.settings line.request

end GettextFill
