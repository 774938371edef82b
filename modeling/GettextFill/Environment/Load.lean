import GettextFill.Environment.File
import GettextFill.Environment.Reference

/-!
# Loading environment files

The variables of a run may come from two files in its working directory: `.env`, which never changes
a variable that is there, and `.env.local`, which does. `loadEnvironment` reads both and goes on
when one of them cannot be read. `loadReferences` reads `.env` alone and expands references, in its
values and in those of all variables that are there.
-/

namespace GettextFill

variable {m : Type → Type} [Monad m] [Host m]

/-- Give a variable its value, which ends before the first null character. -/
def setVariable (name value : Text) : m Unit :=
  Host.setEnvironment name (value.takeWhile (· ≠ '\x00'))

/-- Give variables their values; those that are there keep theirs unless they are overridden. -/
def setAll (overrides : Bool) : Dictionary Text → m Unit
  | [] => return ()
  | (name, value) :: rest => do
    if overrides || (← Host.environment? name).isNone then setVariable name value
    setAll overrides rest

def warnNotLoaded (name : Text) (e : OsError) : m Unit :=
  Host.say .warn [.text (("Warning: Could not load " : Text) ++ name ++ ": " ++ e.message)]

/-- Whether a variable is there and not empty. -/
def isOn (name : Text) : m Bool := return ((← Host.environment? name).getD []) ≠ []

/-- Say that a key to a vault was given although there is no vault beside the file. -/
def sayVaultMissing (path : Text) : m Unit := do
  if (← isOn "DOTENV_KEY") && (← Host.probe (path ++ ".vault")).isSome then
    Host.say .log
      [.text (("[dotenv@16.6.1][WARN] You set DOTENV_KEY but you are missing " : Text) ++
        "a .env.vault file at null. Did you forget to build it?")]

/-- Load one file and say whether that could be done. -/
def loadFile (name : Text) (overrides : Bool) : m Bool := do
  let path := Path.resolve (← Host.workingDirectory) name
  match ← Host.probe path with
  | some e => do
    if e.errno ≠ .noEntry then warnNotLoaded name e
    return false
  | none => do
    sayVaultMissing path
    match ← Host.readFile path with
    | .error e => do
      warnNotLoaded name e
      return false
    | .ok bytes => do
      setAll overrides (EnvironmentFile.read (Utf8.decodeLossy bytes))
      if (← isOn "VERBOSE") || (← isOn "DEBUG") then
        Host.say .log [.text ("Loaded environment variables from " ++ name)]
      return true

/-- Load both files and count those that could be loaded. -/
def loadEnvironment : m Nat := do
  let first ← loadFile ".env" false
  let second ← loadFile ".env.local" true
  return first.toNat + second.toNat

/-- Why references cannot be loaded. -/
inductive ReferencesFlaw
  | unreadable (e : OsError)
  | reference (flaw : ReferenceFlaw)
  deriving DecidableEq

/-- The values of `.env`, if there is such a file. -/
def readReferences : m (Except OsError (Dictionary Text)) := do
  let path := Path.resolve (← Host.workingDirectory) ".env"
  if !(← Host.probe path).isNone then return .ok []
  match ← Host.readFile path with
  | .error e => return .error e
  | .ok bytes => return .ok (EnvironmentFile.read (Utf8.decodeLossy bytes))

/-- Values with those of the variables over them, unless a variable says that this has been done. -/
def withVariables (known : Dictionary Text) : m (Dictionary Text) := do
  if ← isOn "_applied" then return known
  let all := (← Host.environment).foldl (fun d (name, value) => d.put name value) known
  return all.put "_applied" "true"

/-- Whether a variable of this name is set from a file. A name that begins with a low line is only
there to be referred to, and one that every object answers counts as set. -/
def isSettable (name : Text) : Bool :=
  name.head? ≠ some '_' && !Dictionary.isReserved name

/-- Set the variables of `.env` that are not there, with their references expanded. -/
def loadReferences : m (Except ReferencesFlaw Unit) := do
  match ← readReferences with
  | .error e => return .error (.unreadable e)
  | .ok known => do
    let known ← withVariables known
    match ← (expandAll known known.keys).run with
    | .error flaw => return .error (.reference flaw)
    | .ok known => do
      setAll false (known.filter fun pair => isSettable pair.1)
      return .ok ()

end GettextFill
