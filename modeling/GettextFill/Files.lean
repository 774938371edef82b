import GettextFill.Document.Shown
import GettextFill.Fault
import GettextFill.Host
import GettextFill.Text.Encoding

/-!
# Text files

`readText` reads a whole file as text and `writeText` replaces one. Reading is strict: bytes that
are no text are refused, and a byte order mark stays in the text. Writing goes to a temporary file
beside the target, which then takes its place, so that the target holds either what it held or all
that is to be written; the file that is replaced can be kept as a backup.
-/

namespace GettextFill

/-- Why a file could not be read or written. -/
structure Refusal where
  message : Text
  code : Text
  deriving DecidableEq

def OsError.refusal (e : OsError) : Refusal := { message := e.message, code := e.code }

/-- How files are read and written. -/
structure FileOptions where
  /-- Whether a file is replaced at once by one that is complete. -/
  atomic : Bool
  /-- Whether directories that are missing are made. -/
  makesDirectories : Bool
  /-- Whether the file that is replaced is kept. -/
  backsUp : Bool
  /-- The path of the directory for what is kept, as it is given. -/
  backupDirectory : Document
  /-- The name of an encoding, as it is given. -/
  encoding : Document

namespace FileOptions

def of (fields : Dictionary Document) : FileOptions :=
  { atomic := Document.isSet (fields.get? "atomic")
    makesDirectories := Document.isSet (fields.get? "createMissingDirs")
    backsUp := Document.isSet (fields.get? "backupFiles")
    backupDirectory := (fields.get? "backupDir").getD .null
    encoding := (fields.get? "encoding").getD .null }

def strict (o : FileOptions) : Bool :=
  o.encoding.text? = some "utf8" || o.encoding.text? = some "utf-8"

def unknownEncoding (name : Text) : Refusal :=
  { message := "Unknown encoding: " ++ name, code := "ERR_UNKNOWN_ENCODING" }

/-- The name of an encoding that is not known as it is quoted. -/
def quotedName : Document → Text
  | .list items => (Document.list items).shownAt 1 0
  | .object fields => (Document.object fields).shownAt 1 0
  | d => d.plain

def decode (o : FileOptions) (bytes : Bytes) : Except Refusal Text :=
  if o.strict then
    match Utf8.decode? bytes with
    | some t => .ok t
    | none =>
      .error
        { message := "The encoded data was not valid for encoding utf-8",
          code := "ERR_ENCODING_INVALID_ENCODED_DATA" }
  else
    match Encoding.ofName? o.encoding.plain with
    | some encoding => .ok (encoding.read bytes)
    | none => .error (unknownEncoding (quotedName o.encoding))

/-- The bytes that text is written as. Without an encoding it is the usual one; `buffer` is the name
of none. -/
def encode (o : FileOptions) (t : Text) : Except Refusal Bytes :=
  if !o.encoding.truthy then .ok (Utf8.encode t)
  else
    match o.encoding.text?.bind Encoding.ofName? with
    | some encoding => .ok (encoding.write t)
    | none =>
      if o.encoding.text? = some "buffer" then .error (unknownEncoding "buffer")
      else
        .error
          { message :=
              "The argument 'encoding' is invalid encoding. Received " ++ received o.encoding.shown,
            code := "ERR_INVALID_ARG_VALUE" }

def kindOf : Document → Text
  | .null => "null"
  | .bool b => "type boolean (" ++ (Document.bool b).plain ++ [')']
  | .number n => "type number (" ++ Document.shownNumber n ++ [')']
  | .text t => "type string (" ++ Text.quoted t ++ [')']
  | .list _ => "an instance of Array"
  | .object _ => "an instance of Object"

/-- The path of the directory for what is kept, which has to be a text. -/
def backupPath (o : FileOptions) : Except Refusal Text :=
  match o.backupDirectory with
  | .text path => .ok path
  | d =>
    .error
      { message :=
          ("The \"path\" argument must be of type string or an instance of Buffer or URL." : Text) ++
            " Received " ++ kindOf d,
        code := "ERR_INVALID_ARG_TYPE" }

end FileOptions

variable {m : Type → Type} [Monad m] [Host m]

def pathExists (path : Text) : m Bool := return (← Host.probe path).isNone

/-- The options of the session with others laid over them. -/
def effectiveOptions (options : Option Document) : m FileOptions :=
  return FileOptions.of (Settings.overlay (← Host.session).files options)

/-- Lay options over the usual ones for all that follows. Options that count as false change
nothing. -/
def configureFiles (options : Option Document) : m Unit := do
  if Document.isSet options then
    Host.setSession
      { ← Host.session with files := Settings.overlay Session.defaultFiles options }

def readText (path : Text) (options : Option Document) : m (Except Fault Text) := do
  let o ← effectiveOptions options
  match ← Host.readFile path with
  | .error e => return .error (.unreadable path e.message (some e.code))
  | .ok bytes =>
    match o.decode bytes with
    | .error r => return .error (.unreadable path r.message (some r.code))
    | .ok t => return .ok t

namespace Writing

def step (action : m (Except OsError Unit)) : m (Except Refusal Unit) := do
  match ← action with
  | .ok () => return .ok ()
  | .error e => return .error e.refusal

/-- Go on unless the step before was refused. -/
def andThen (action next : m (Except Refusal Unit)) : m (Except Refusal Unit) := do
  match ← action with
  | .ok () => next
  | .error r => return .error r

def direct (o : FileOptions) (path content : Text) : m (Except Refusal Unit) :=
  match o.encode content with
  | .error r => return .error r
  | .ok bytes => step (Host.writeFile path bytes)

/-- The name of a temporary file beside a file. -/
def temporaryPath (path : Text) : m Text := do
  let time ← Host.now
  return path ++ ".tmp." ++ Text.ofNat time ++ "." ++ (← Host.nonce).text

/-- Take a temporary file away that could not take the place of its target. -/
def discard (temporary : Text) : m Unit := do
  match ← Host.removeFile temporary with
  | .ok () => return ()
  | .error e =>
    Host.say .warn
      [.text (("Could not remove temporary file " : Text) ++ temporary ++ ": " ++ e.message)]

/-- Write text beside a file and put it in the place of the file. -/
def atomically (o : FileOptions) (path content : Text) : m (Except Refusal Unit) := do
  let temporary ← temporaryPath path
  match ← andThen (direct o temporary content) (step (Host.rename temporary path)) with
  | .ok () => return .ok ()
  | .error r => do
    discard temporary
    return .error r

/-- Keep what is at a path under a name with the time in it. -/
def backUp (o : FileOptions) (path : Text) : m (Except Refusal Unit) :=
  match o.backupPath with
  | .error r => return .error r
  | .ok directory =>
    andThen (step (Host.makeDirectories directory)) do
      let time ← Host.now
      let name := Path.base path ++ '.' :: Text.ofNat time ++ ".bak"
      step (Host.copyFile path (Path.join [directory, name]))

/-- Make the directory of a file if that is asked for. -/
def makeRoom (o : FileOptions) (path : Text) : m (Except Refusal Unit) :=
  if o.makesDirectories then step (Host.makeDirectories (Path.directory path))
  else return .ok ()

/-- Keep the file that is there if that is asked for. -/
def keepPrevious (o : FileOptions) (path : Text) : m (Except Refusal Unit) := do
  if o.backsUp then
    if ← pathExists path then backUp o path else return .ok ()
  else return .ok ()

def replace (o : FileOptions) (path content : Text) : m (Except Refusal Unit) :=
  andThen (makeRoom o path)
    (andThen (keepPrevious o path)
      (if o.atomic then atomically o path content else direct o path content))

end Writing

def writeText (path content : Text) (options : Option Document) : m (Except Fault Unit) := do
  let o ← effectiveOptions options
  match ← Writing.replace o path content with
  | .ok () => return .ok ()
  | .error r => return .error (.unwritable path r.message (some r.code))

end GettextFill
