import GettextFill.FileTree
import GettextFill.Log
import GettextFill.Nonce
import GettextFill.Settings

/-!
# What a run needs of its surroundings

A run reads and writes files, speaks to the terminal, looks at the clock and at the variables of its
environment, and keeps a session: how files are written and messages are logged from now on. `Host`
lists these actions, so that a run is a program in any monad that has them.

`Surroundings` is the state of a run that happens in memory, with `FileTree` for the files, and
`StateM Surroundings` the host in which runs are reasoned about. Its clock ticks whenever it is
looked at; what it shows at a tick and the nonce that is drawn then may be anything. Any operation on
files may meet with a mishap, a failure that the tree does not account for such as a full disk; what
is being written then may be left in part.
-/

namespace GettextFill

/-- Where a message goes. -/
inductive Channel
  | log
  | warn
  | error
  deriving DecidableEq

/-- What later actions of a session depend on. -/
structure Session where
  /-- How files are read and written. -/
  files : Dictionary Document
  log : LogSettings
  /-- Whether the directory of the log files has been seen to. -/
  logReady : Bool
  /-- The settings files that were met, each with the document that was first read from it. -/
  settingsFiles : Dictionary (Option Document) := []

/-- How files are read and written unless options say otherwise. -/
def Session.defaultFiles : Dictionary Document :=
  [("atomic", .bool true), ("createMissingDirs", .bool false), ("backupFiles", .bool false),
    ("backupDir", .text "./backups"), ("encoding", .text "utf8")]

def Session.initial : Session :=
  { files := Session.defaultFiles, log := {}, logReady := false }

/-- The actions of a run on its surroundings. -/
class Host (m : Type → Type) where
  /-- Why there is nothing at a path, if nothing is there. -/
  probe : Text → m (Option OsError)
  readFile : Text → m (Except OsError Bytes)
  writeFile : Text → Bytes → m (Except OsError Unit)
  appendFile : Text → Bytes → m (Except OsError Unit)
  copyFile : Text → Text → m (Except OsError Unit)
  rename : Text → Text → m (Except OsError Unit)
  removeFile : Text → m (Except OsError Unit)
  makeDirectories : Text → m (Except OsError Unit)
  say : Channel → List Document → m Unit
  /-- The time in milliseconds. -/
  now : m Nat
  nonce : m Nonce
  /-- The value of a variable. -/
  environment? : Text → m (Option Text)
  /-- All variables with their values. -/
  environment : m (Dictionary Text)
  setEnvironment : Text → Text → m Unit
  workingDirectory : m Text
  session : m Session
  setSession : Session → m Unit

/-- What becomes of an operation on files that the system breaks off. -/
structure Mishap where
  error : OsError
  /-- How many bytes had been written until then, if a file was opened to be written at all. -/
  written : Option Nat := none
  deriving DecidableEq

/-- The state of everything around a run. -/
structure Surroundings where
  tree : FileTree
  /-- The working directory. -/
  here : Place
  /-- The fate of the operations on files that are to come, in order: a mishap, or what the tree
  allows. The tree alone decides on those that are not listed. -/
  mishaps : List (Option Mishap) := []
  environment : Dictionary Text := []
  /-- What was said so far. -/
  said : List (Channel × List Document) := []
  /-- The ticks of the clock, one for every time that it was looked at. -/
  clock : Nat := 0
  /-- What the clock shows at a tick. -/
  times : Nat → Nat := id
  /-- The nonce that is drawn at a tick. -/
  nonces : Nat → Nonce := fun _ => default
  session : Session := Session.initial

namespace Surroundings

/-- The mishap of the next operation on files, if it has one. -/
def mishap? (s : Surroundings) : Option Mishap := s.mishaps.head?.join

/-- The surroundings of the operation on files after the next. -/
def pass (s : Surroundings) : Surroundings := { s with mishaps := s.mishaps.tail }

/-- Look at the tree. `broken` is what is seen of it in a mishap. -/
def look {α : Type} (seen : FileTree → Place → α) (broken : OsError → α) :
    StateM Surroundings α := fun s =>
  match s.mishap? with
  | some m => (broken m.error, s.pass)
  | none => (seen s.tree s.here, s.pass)

/-- Let an operation change the tree, unless it is refused. -/
def change (operation : FileTree → Place → Except OsError FileTree) :
    StateM Surroundings (Except OsError Unit) := fun s =>
  match operation s.tree s.here with
  | .ok tree => (.ok (), { s.pass with tree })
  | .error e => (.error e, s.pass)

/-- Let an operation change the tree unless a mishap comes first, which leaves it as it is. -/
def attempt (operation : FileTree → Place → Except OsError FileTree) :
    StateM Surroundings (Except OsError Unit) := fun s =>
  match s.mishap? with
  | some m => (.error m.error, s.pass)
  | none => change operation s

/-- Let an operation write to a file. It is given what is written of the bytes that are to be, and
that is only the first of them if it ends in a mishap. -/
def write (operation : (Bytes → Bytes) → FileTree → Place → Except OsError FileTree) :
    StateM Surroundings (Except OsError Unit) := fun s =>
  match s.mishap? with
  | none => change (operation id) s
  | some { error, written := none } => (.error error, s.pass)
  | some { error, written := some n } => (.error error, (change (operation (List.take n)) s).2)

def path (s : Surroundings) : Text := '/' :: Text.join ['/'] s.here

instance : Host (StateM Surroundings) where
  probe path := look (fun t here => t.probe here path) some
  readFile path := look (fun t here => t.readFile here path) .error
  writeFile path content := write fun part t here => t.writeFile here path (part content)
  appendFile path more := write fun part t here => t.appendFile here path (part more)
  copyFile source target := write fun part t here => t.copyFile here source target part
  rename source target := attempt fun t here => t.rename here source target
  removeFile path := attempt fun t here => t.removeFile here path
  makeDirectories path := fun s =>
    match s.mishap? with
    | some m => (.error m.error, s.pass)
    | none =>
      let (tree, made) := s.tree.makeDirectories s.here path
      (made, { s.pass with tree })
  say channel parts := fun s => ((), { s with said := s.said ++ [(channel, parts)] })
  now := fun s => (s.times s.clock, { s with clock := s.clock + 1 })
  nonce := fun s => (s.nonces s.clock, s)
  environment? name := fun s => (s.environment.get? name, s)
  environment := fun s => (s.environment, s)
  setEnvironment name value := fun s =>
    ((), { s with environment := s.environment.insert name value })
  workingDirectory := fun s => (s.path, s)
  session := fun s => (s.session, s)
  setSession session := fun s => ((), { s with session })

end Surroundings

end GettextFill
