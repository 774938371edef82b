import GettextFill.Program
import Std.Time.DateTime.Timestamp

/-!
# On the system

The host of the program as it is run: files, clock and terminal are those of the system. Variables
that the program sets are its own; the system is asked for all others.
-/

namespace GettextFill.OnSystem

/-- What the program itself keeps while it runs. -/
structure Kept where
  /-- The variables that it has set. -/
  environment : Dictionary Text := []
  session : Session := Session.initial

/-- Actions on the system. -/
abbrev Action := StateT Kept IO

def errnoOf (number : UInt32) (words : String) : Errno :=
  match number.toNat with
  | 2 => .noEntry
  | 16 => .busy
  | 17 => .occupied
  | 20 => .notDirectory
  | 21 => .isDirectory
  | 36 => .nameTooLong
  | 1 => .other "EPERM" "operation not permitted"
  | 13 => .other "EACCES" "permission denied"
  | 18 => .other "EXDEV" "cross-device link not permitted"
  | 27 => .other "EFBIG" "file too large"
  | 28 => .other "ENOSPC" "no space left on device"
  | 30 => .other "EROFS" "read-only file system"
  | 40 => .other "ELOOP" "too many symbolic links encountered"
  | n => .other ('E' :: Text.ofNat n) words.toList

def errnoOfError : IO.Error → Errno
  | .alreadyExists _ n words => errnoOf n words
  | .otherError n words => errnoOf n words
  | .resourceBusy n words => errnoOf n words
  | .unsupportedOperation n words => errnoOf n words
  | .hardwareFault n words => errnoOf n words
  | .illegalOperation n words => errnoOf n words
  | .noFileOrDirectory _ n words => errnoOf n words
  | .invalidArgument _ n words => errnoOf n words
  | .permissionDenied _ n words => errnoOf n words
  | .resourceExhausted _ n words => errnoOf n words
  | .inappropriateType _ n words => errnoOf n words
  | e => .other "EIO" (toString e).toList

/-- An action that the system may refuse; `attempt` is noted in a refusal. -/
def attempted {α : Type} (attempt : Attempt) (action : IO α) : Action (Except OsError α) := do
  if attempt.path.contains '\x00' then return .error { errno := .nullByte, attempt }
  match ← action.toBaseIO with
  | .ok a => return .ok a
  | .error e => return .error { errno := errnoOfError e, attempt }

def native (path : Text) : String := String.ofList path

/-- Follow a path to what is there, whether or not that may be read. -/
def follow (path : Text) : IO Unit := do
  let _ ← IO.FS.realPath (native path)
  return ()

/-- Open a file for reading. -/
def openAt (path : Text) : IO Unit := do
  let _ ← IO.FS.Handle.mk (native path) .read
  return ()

def contentOf (path : Text) : Action (Except OsError Bytes) := do
  match ← attempted (.on "open" path) (openAt path) with
  | .error e => return .error e
  | .ok () =>
    match ← attempted (.alone "read") (IO.FS.readBinFile (native path)) with
    | .error e => return .error e
    | .ok bytes => return .ok bytes.toList

def appendTo (path : Text) (more : Bytes) : IO Unit := do
  let file ← IO.FS.Handle.mk (native path) .append
  file.write (ByteArray.mk more.toArray)

def remove (path : Text) : Action (Except OsError Unit) := do
  match ← attempted (.on "lstat" path) (IO.FS.removeFile (native path)) with
  | .error { errno := .noEntry, .. } => return .ok ()
  | r => return r

def copy (source target : Text) : IO Unit := do
  IO.FS.writeBinFile (native target) (← IO.FS.readBinFile (native source))

def stream (channel : Channel) : IO IO.FS.Stream :=
  if channel.isOutput then IO.getStdout else IO.getStderr

def sayOn (channel : Channel) (parts : List Document) : IO Unit := do
  let out ← stream channel
  out.putStr (native (terminalLine parts))
  out.flush

def clock : IO Nat :=
  return (← Std.Time.Timestamp.now).toMillisecondsSinceUnixEpoch.val.toNat

def randomNonce : IO Nonce := do
  let bytes ← IO.getRandomBytes 7
  return Nonce.ofFraction (Nat.pow 256 7) (bytes.toList.foldl (fun n byte => 256 * n + byte.toNat) 0)

/-- The value of a variable: the one that was set, else that of the system. -/
def variableValue (name : Text) : Action (Option Text) := do
  match (← get).environment.get? name with
  | some value => return some value
  | none => return (← IO.getEnv (native name)).map String.toList

/-- A variable as the system lists it: its name, an equals sign and its value. -/
def listed? (t : Text) : Option (Text × Text) :=
  match t.dropWhile (· ≠ '=') with
  | _ :: value => some (t.takeWhile (· ≠ '='), value)
  | [] => none

/-- All variables: those of the system, and over them those that were set. -/
def allVariables : Action (Dictionary Text) := do
  let ofSystem ← match ← (IO.FS.readBinFile "/proc/self/environ").toBaseIO with
    | .ok bytes => pure ((Utf8.decodeLossy bytes.toList).splitOn '\x00')
    | .error _ => pure []
  return (← get).environment.foldl (fun d (name, value) => d.insert name value)
    (ofSystem.filterMap listed?)

instance : Host Action where
  probe path := do
    match ← attempted (.on "access" path) (follow path) with
    | .error e => return some e
    | .ok () => return none
  readFile path := contentOf path
  writeFile path content :=
    attempted (.on "open" path)
      (IO.FS.writeBinFile (native path) (ByteArray.mk content.toArray))
  appendFile path more := attempted (.on "open" path) (appendTo path more)
  copyFile source target :=
    attempted (.between "copyfile" source target) (copy source target)
  rename source target :=
    attempted (.between "rename" source target)
      (IO.FS.rename (native source) (native target))
  removeFile path := remove path
  makeDirectories path :=
    attempted (.on "mkdir" path) (IO.FS.createDirAll (native path))
  say channel parts := sayOn channel parts
  now := clock
  nonce := randomNonce
  environment? name := variableValue name
  environment := allVariables
  setEnvironment name value :=
    modify fun kept => { kept with environment := kept.environment.insert name value }
  workingDirectory := return (← IO.currentDir).toString.toList
  session := return (← get).session
  setSession session := modify fun kept => { kept with session }

end GettextFill.OnSystem

/-- Run the program with the words of the command line. -/
def main (words : List String) : IO UInt32 := do
  let program : GettextFill.OnSystem.Action Nat := GettextFill.program (words.map String.toList)
  return (← program.run' {}).toUInt32
