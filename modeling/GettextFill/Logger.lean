import GettextFill.Host
import GettextFill.Moment

/-!
# Logging

`record` tells a message: on the terminal as far as the log settings of the session say so, and in
the file of its level if messages are kept. A message that cannot be kept is not lost silently, but
that is told on the terminal alone. The directory of the files is made once, before the first
message is kept.
-/

namespace GettextFill

variable {m : Type → Type} [Monad m] [Host m]

/-- Where messages of a level go on the terminal. -/
def LogLevel.channel : LogLevel → Channel
  | .error => .error
  | .warning => .warn
  | .info => .log
  | .debug => .log

/-- Make the directory of the log files, the first time only. -/
def prepareLog (s : LogSettings) : m Unit := do
  let session ← Host.session
  if session.logReady then return ()
  match ← Host.makeDirectories s.directory with
  | .ok () => pure ()
  | .error e => Host.say .warn [.text ("Logger initialization warning: " ++ e.message)]
  Host.setSession { ← Host.session with logReady := true }

def keepMessage (s : LogSettings) (level : LogLevel) (message : Text) (data : Option Document) :
    m Unit := do
  prepareLog s
  let time ← if s.timestamps then (do return some (Moment.text (← Host.now))) else pure none
  let line := s.line time level.name message data ++ ['\n']
  match ← Host.appendFile (s.file level) (Utf8.encode line) with
  | .ok () => return ()
  | .error e => Host.say .warn [.text ("Failed to write to log file: " ++ e.message)]

def tell (s : LogSettings) (level : LogLevel) (message : Text) (data : Option Document) :
    m Unit := do
  if s.shows level then
    Host.say level.channel [.text (level.mark ++ (": " : Text) ++ message)]
    match data with
    | some d => if s.showsData level data then Host.say level.channel [d] else return ()
    | none => return ()

def record (level : LogLevel) (message : Text) (data : Option Document) : m Unit := do
  let s := (← Host.session).log
  tell s level message data
  if s.toFiles then keepMessage s level message data

def configureLog (s : LogSettings) : m Unit := do
  Host.setSession { ← Host.session with log := s, logReady := false }

end GettextFill
