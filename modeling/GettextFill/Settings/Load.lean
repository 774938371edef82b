import GettextFill.Document.Json
import GettextFill.Environment.Load
import GettextFill.Settings.Lines
import GettextFill.Settings.Merge

/-!
# Loading settings

The settings of a directory are those of its settings file, over those on the lines of a second
file, over those of the layers that they name, over the defaults. `Settings.load` reads both files,
of which neither has to be there, and sets the variables of the environment file on the way.

The settings file may hold fields for the environment that the variable `NODE_ENV` names, which come
before all others. It is read once in a session: what it held then it holds as long as it is there.
-/

namespace GettextFill

/-- Settings with where they come from. -/
structure LoadedSettings where
  settings : Settings
  /-- The path of the settings file, if there is one. -/
  path : Option Text
  /-- The number of sources: the settings file if it holds anything, the lines, and all layers. -/
  sources : Nat

/-- Why settings cannot be loaded. -/
inductive LoadFlaw
  /-- A file cannot be read. -/
  | unreadable (e : OsError)
  /-- A variable refers to what is no value. -/
  | reference (flaw : ReferenceFlaw)
  /-- The settings file is no document. -/
  | notDocument (path : Text)
  /-- The settings file holds a single value. -/
  | notFields (path : Text)
  /-- A line cannot be taken over. -/
  | line (flaw : PlaceFlaw)
  /-- The layers are no list of documents. -/
  | notLayers
  deriving DecidableEq

def LoadFlaw.message : LoadFlaw → Text
  | unreadable e => e.message
  | reference flaw => flaw.message
  | notDocument path => path ++ ": not a JSON document"
  | notFields path => path ++ ": not a JSON object"
  | line flaw => flaw.message
  | notLayers => "_layers: not a list of layers"

namespace Settings

/-- The name of the settings file without its extension. -/
def fileName : Text := "pofill.config"

/-! ### The settings file -/

/-- A settings file that was met in a session. -/
structure File where
  path : Text
  /-- What it holds, unless it is gone. -/
  document : Option Document

def part? (d : Option Document) (name : Text) : Option Document :=
  (d.bind Document.parts?).bind fun parts => parts.get? name

/-- The fields for an environment: those under its name in the field `$env` over those of the field
whose name is `$` and its name. -/
def environmentFields (d : Document) (name : Text) : Dictionary Document :=
  overlay (overlay [] (d.get? ('$' :: name))) (part? (d.get? "$env") name)

/-- What a settings file holds for an environment. A field about the file itself is no setting. -/
def forEnvironment (name : Text) : Document → Document
  | .object fields =>
    let more := if name.isEmpty then [] else environmentFields (.object fields) name
    .object (Dictionary.erase (mergeFields fields more) "$meta")
  | d => d

/-- Whether a document has fields or items that settings can be taken from. -/
def hasParts : Document → Bool
  | .object _ => true
  | .list _ => true
  | _ => false

variable {m : Type → Type} [Monad m] [Host m]

def remember (path : Text) (d : Option Document) : m Unit := do
  let session ← Host.session
  Host.setSession { session with settingsFiles := session.settingsFiles.insert path d }

/-- The document of a settings file that is there: the one that was read before, else the one that
it holds now. -/
def readDocument (path : Text) (before : Option Document) : m (Except LoadFlaw Document) := do
  match before with
  | some d => return .ok d
  | none =>
    match ← Host.readFile path with
    | .error e => return .error (.unreadable e)
    | .ok bytes =>
      match Json.read? (Text.dropMark (Utf8.decodeLossy bytes)) with
      | none => do
        remember path none
        return .error (.notDocument path)
      | some d => do
        remember path (some d)
        return .ok d

/-- The settings file of a directory, if there is one or was one before. -/
def readFile (directory : Text) : m (Except LoadFlaw (Option File)) := do
  let path := Path.resolve directory (fileName ++ ".json")
  let known := (← Host.session).settingsFiles.get? path
  let isThere := (← Host.probe path).isNone
  let isFile := (← Host.readFile path).isOk
  if known.isNone && !isFile then return .ok none
  else if !isThere then return .ok (some { path, document := none })
  else
    match ← readDocument path known.join with
    | .error flaw => return .error flaw
    | .ok d =>
      if hasParts d then return .ok (some { path, document := some d })
      else return .error (.notFields path)

/-! ### Lines -/

/-- Say which fields of written values were left out. -/
def sayDropped : List Text → m Unit
  | [] => return ()
  | key :: rest => do
    Host.say .warn
      [.text (("[destr] Dropping \"" : Text) ++ key ++ "\" key to prevent prototype pollution.")]
    sayDropped rest

/-- The fields on the lines of the second file of a directory. -/
def readLines (directory : Text) : m (Except LoadFlaw (Dictionary Document)) := do
  let path := Path.resolve directory ".pofillrc"
  if !(← Host.probe path).isNone then return .ok []
  match ← Host.readFile path with
  | .error e => return .error (.unreadable e)
  | .ok bytes => do
    let reading := SettingsLines.read (Utf8.decodeLossy bytes)
    sayDropped reading.dropped
    match reading.fields with
    | .error flaw => return .error (.line flaw)
    | .ok fields => return .ok fields

/-! ### Sources together -/

def layers? (given : Dictionary Document) : Option (List Document) :=
  match given.get? "_layers" with
  | some (.list items) => some items
  | d => if Document.isSet d then none else some []

def layerFields? : Document → Option (Dictionary Document)
  | .null => none
  | d => some (((d.get? "config").map Document.fields).getD [])

def namesSources (key : Text) : Bool := key = "extends" || key = "_layers"

/-- Fields laid over those of layers, each over those behind it. -/
def overLayers (given : Dictionary Document) (layers : List (Dictionary Document)) :
    Dictionary Document :=
  layers.foldl (fun given layer => mergeFields layer given) given

/-- Both files over their layers over the defaults, with the number of layers. A settings file that
holds a list gives nothing, and no other source but the defaults then does. -/
def combine? (file : Option Document) (lines : Dictionary Document) : Option (Settings × Nat) :=
  let given := match file with
    | some (.list _) => []
    | some (.object fields) => mergeFields lines fields
    | _ => lines
  match (layers? given).bind fun items => items.mapM layerFields? with
  | none => none
  | some layers =>
    let own := given.filter fun field => !namesSources field.1
    some (mergeFields defaults (overLayers own layers), layers.length)

/-- Load the settings of the working directory. -/
def load : m (Except LoadFlaw LoadedSettings) := do
  let environment := (← Host.environment? "NODE_ENV").getD []
  match ← loadReferences with
  | .error (.unreadable e) => return .error (.unreadable e)
  | .error (.reference flaw) => return .error (.reference flaw)
  | .ok () =>
    let here ← Host.workingDirectory
    match ← readFile here with
    | .error flaw => return .error flaw
    | .ok file =>
      match ← readLines here with
      | .error flaw => return .error flaw
      | .ok lines =>
        let document := (file.bind File.document).map (forEnvironment environment)
        match combine? document lines with
        | none => return .error .notLayers
        | some (settings, layers) =>
          return .ok
            { settings
              path := file.map File.path
              sources := (if document.isSome then 2 else 1) + layers }

end Settings

end GettextFill
