import GettextFill.OsError
import GettextFill.Path
import GettextFill.Text.Utf8

/-!
# File trees

A file tree says what stands at every place. A place is the list of names that leads to it from the
root, which is always a directory. There are directories and files in a tree and no links, so a place
has one name. `FileTree.locate` finds the place that a path leads to from a working directory; the
operations below it read and change what stands there or are refused.

An operation changes nothing but the places it is about: `node?_set_ne` and `node?_erase_ne` say so
of the two changes that all of them are made of.
-/

namespace GettextFill

/-- A place in a file tree: the names on the way from the root. -/
abbrev Place := List Text

/-- What may stand at a place. -/
inductive Node
  | directory
  | file (content : Bytes)
  deriving DecidableEq

/-- What stands where. -/
structure FileTree where
  nodes : List (Place × Node) := []
  deriving DecidableEq

namespace FileTree

/-- What stands at a place, in a list of places. -/
def find? : List (Place × Node) → Place → Option Node
  | [], _ => none
  | (p, n) :: rest, place => if p = place then some n else find? rest place

/-- What stands at a place, if anything does. -/
def node? (t : FileTree) (place : Place) : Option Node :=
  if place = [] then some .directory else find? t.nodes place

def replace : List (Place × Node) → Place → Node → List (Place × Node)
  | [], place, node => [(place, node)]
  | (p, n) :: rest, place, node =>
    if p = place then (p, node) :: rest else (p, n) :: replace rest place node

def set (t : FileTree) (place : Place) (node : Node) : FileTree :=
  { nodes := replace t.nodes place node }

def erase (t : FileTree) (place : Place) : FileTree :=
  { nodes := t.nodes.filter fun entry => entry.1 ≠ place }

/-- Take away what stands at a place and below it. -/
def prune (t : FileTree) (place : Place) : FileTree :=
  { nodes := t.nodes.filter fun entry => !place.isPrefixOf entry.1 }

/-! ### Places of paths -/

/-- Names of more bytes than this are refused. -/
def longestName : Nat := 255

/-- Paths of more bytes than this are refused. -/
def longestPath : Nat := 4095

/-- Why a path is refused before anything is looked for. -/
def refusal? (path : Text) : Option Errno :=
  if path.contains '\x00' then some .nullByte
  else if path = [] then some .noEntry
  else if longestPath < (Utf8.encode path).length then some .nameTooLong
  else none

/-- Go on from a place by names. Every place on the way has to be a directory; the last may have
nothing standing there. -/
def walk (t : FileTree) (here : Place) : List Text → Except Errno Place
  | [] => .ok here
  | name :: rest =>
    match t.node? here with
    | none => .error .noEntry
    | some (.file _) => .error .notDirectory
    | some .directory =>
      if name = [] || name = ['.'] then walk t here rest
      else if name = Path.parent then walk t here.dropLast rest
      else if longestName < (Utf8.encode name).length then .error .nameTooLong
      else walk t (here ++ [name]) rest

def start (here : Place) (path : Text) : Place := if Path.isAbsolute path then [] else here

/-- The place that a path leads to from a working directory. -/
def locate (t : FileTree) (here : Place) (path : Text) : Except Errno Place :=
  match refusal? path with
  | some errno => .error errno
  | none => walk t (start here path) (Path.pieces path)

def reach (t : FileTree) (here : Place) (path : Text) : Except Errno Node :=
  match t.locate here path with
  | .error e => .error e
  | .ok place =>
    match t.node? place with
    | some node => .ok node
    | none => .error .noEntry

/-! ### Operations -/

/-- The content of a file. A directory can be opened but not read. -/
def readFile (t : FileTree) (here : Place) (path : Text) : Except OsError Bytes :=
  match t.reach here path with
  | .error errno => .error { errno, attempt := Attempt.on "open" path }
  | .ok .directory => .error { errno := .isDirectory, attempt := .alone "read" }
  | .ok (.file content) => .ok content

/-- Why there is nothing at a path, if nothing is there. -/
def probe (t : FileTree) (here : Place) (path : Text) : Option OsError :=
  match t.reach here path with
  | .error errno => some { errno, attempt := Attempt.on "access" path }
  | .ok _ => none

/-- The place of the directory that names lead to from a place. -/
def walkInto (t : FileTree) (here : Place) (names : List Text) : Except Errno Place :=
  match t.walk here names with
  | .error errno => .error errno
  | .ok place =>
    match t.node? place with
    | some .directory => .ok place
    | some (.file _) => .error .notDirectory
    | none => .error .noEntry

/-- The place where a path has a file be made. No file has a path that ends in a slash: there is a
directory to be looked for. -/
def locateFile (t : FileTree) (here : Place) (path : Text) : Except Errno Place :=
  match refusal? path, Path.lastName? path with
  | some errno, _ => .error errno
  | none, none => t.locate here path
  | none, some (above, _) =>
    if path.getLast? = some '/' then
      match t.walkInto (start here path) above with
      | .error errno => .error errno
      | .ok _ => .error .isDirectory
    else t.locate here path

/-- Put a file at a path, with the content that `change` makes of the one there. -/
def putFile (t : FileTree) (here : Place) (path : Text) (attempt : Attempt)
    (change : Bytes → Bytes) : Except OsError FileTree :=
  match t.locateFile here path with
  | .error errno => .error { errno, attempt }
  | .ok place =>
    match t.node? place with
    | some .directory => .error { errno := .isDirectory, attempt }
    | some (.file content) => .ok (t.set place (.file (change content)))
    | none => .ok (t.set place (.file (change [])))

def writeFile (t : FileTree) (here : Place) (path : Text) (content : Bytes) :
    Except OsError FileTree :=
  t.putFile here path (Attempt.on "open" path) fun _ => content

def appendFile (t : FileTree) (here : Place) (path : Text) (more : Bytes) :
    Except OsError FileTree :=
  t.putFile here path (Attempt.on "open" path) fun content => content ++ more

/-- Copy what `part` takes of the content of a file. A file is not copied onto itself. -/
def copyFile (t : FileTree) (here : Place) (source target : Text) (part : Bytes → Bytes := id) :
    Except OsError FileTree :=
  let attempt := Attempt.between "copyfile" source target
  match t.reach here source with
  | .error errno => .error { errno, attempt }
  | .ok .directory => .error { errno := .isDirectory, attempt }
  | .ok (.file content) =>
    if (t.locate here target).toOption = (t.locate here source).toOption then .ok t
    else t.putFile here target attempt fun _ => part content

/-- The place where a path has a file be moved, over the file there. A path that ends in a slash is
none of a file, and one that ends in no name is that of a directory in use. -/
def locateGoal (t : FileTree) (here : Place) (path : Text) : Except Errno Place :=
  match t.locate here path, Path.lastName? path with
  | .error errno, _ => .error errno
  | .ok _, none => .error .busy
  | .ok place, some _ =>
    if path.getLast? = some '/' then .error .notDirectory
    else if t.node? place = some .directory then .error .isDirectory
    else .ok place

def rename (t : FileTree) (here : Place) (source target : Text) : Except OsError FileTree :=
  let attempt := Attempt.between "rename" source target
  match t.locate here source with
  | .error errno => .error { errno, attempt }
  | .ok place =>
    match t.node? place with
    | none => .error { errno := .noEntry, attempt }
    | some .directory => .error { errno := .isDirectory, attempt }
    | some (.file content) =>
      match t.locateGoal here target with
      | .error errno => .error { errno, attempt }
      | .ok goal => .ok ((t.erase place).set goal (.file content))

/-- Take a file away if it is there. -/
def removeFile (t : FileTree) (here : Place) (path : Text) : Except OsError FileTree :=
  match t.locate here path with
  | .error .noEntry => .ok t
  | .error errno => .error { errno, attempt := Attempt.on "lstat" path }
  | .ok place =>
    if t.node? place = some .directory then
      .error { errno := .notFile, attempt := Attempt.on "rm" path }
    else .ok (t.erase place)

/-- Make one directory in a directory that is there. -/
def makeDirectory (t : FileTree) (here : Place) (path : Text) : Except Errno FileTree :=
  match refusal? path, Path.lastName? path with
  | some errno, _ => .error errno
  | none, none => (t.locate here path).bind fun _ => .error .occupied
  | none, some (above, name) =>
    match t.walkInto (start here path) above with
    | .error errno => .error errno
    | .ok place =>
      if longestName < (Utf8.encode name).length then .error .nameTooLong
      else
        match t.node? (place ++ [name]) with
        | some _ => .error .occupied
        | none => .ok (t.set (place ++ [name]) .directory)

/-- Whether a directory that could not be made is there all the same. `isWanted` says whether it is
the last to be made. -/
def settle (t : FileTree) (here : Place) (isWanted : Bool) (path : Text) (errno : Errno) :
    Except Errno Unit :=
  match errno, t.reach here path with
  | .notDirectory, _ => .error .notDirectory
  | .occupied, .ok .directory => .ok ()
  | .occupied, found =>
    if !isWanted then .error .notDirectory
    else
      match found with
      | .error errno => .error errno
      | .ok _ => .error .occupied
  | _, .error errno => .error errno
  | _, .ok .directory => .ok ()
  | _, .ok (.file _) => .error .occupied

/-- Make the first of some directories, each of which lies in the one behind it, and those behind it
as far as they are missing. What was made stays when a later one is refused. -/
def makeAll (t : FileTree) (here : Place) (isWanted : Bool) :
    List Text → FileTree × Except OsError Unit
  | [] => (t, .ok ())
  | path :: above =>
    let refuse (t : FileTree) (errno : Errno) : FileTree × Except OsError Unit :=
      match t.settle here isWanted path errno with
      | .ok () => (t, .ok ())
      | .error errno => (t, .error { errno, attempt := .on "mkdir" path })
    match t.makeDirectory here path with
    | .ok t => (t, .ok ())
    | .error errno =>
      if errno = .noEntry && !above.isEmpty then
        match makeAll t here false above with
        | (t, .error e) => (t, .error e)
        | (t, .ok ()) =>
          match t.makeDirectory here path with
          | .ok t => (t, .ok ())
          | .error errno => refuse t errno
      else refuse t errno

/-- Make a directory and those it lies in, as far as they are missing. -/
def makeDirectories (t : FileTree) (here : Place) (path : Text) :
    FileTree × Except OsError Unit :=
  if path.contains '\x00' then
    (t, .error { errno := .nullByte, attempt := .on "mkdir" path })
  else t.makeAll here true (Path.upwards path)

/-! ### What changes -/

theorem find?_replace (nodes : List (Place × Node)) (p q : Place) (node : Node) :
    find? (replace nodes p node) q = if p = q then some node else find? nodes q := by
  induction nodes with
  | nil => simp [replace, find?]
  | cons entry nodes ih =>
      obtain ⟨r, n⟩ := entry
      by_cases hr : r = p
      · subst hr
        simp only [replace, if_true, find?]
        split <;> rfl
      · simp only [replace, hr, if_false, find?, ih]
        by_cases hp : p = q
        · subst hp; simp [hr]
        · simp [hp]

/-- After a change the place holds what was put there. -/
theorem node?_set_self (t : FileTree) {place : Place} (node : Node) (h : place ≠ []) :
    (t.set place node).node? place = some node := by
  simp [node?, set, h, find?_replace]

theorem node?_set_ne (t : FileTree) {place other : Place} (node : Node) (h : place ≠ other) :
    (t.set place node).node? other = t.node? other := by
  simp [node?, set, find?_replace, h]

theorem find?_filter_ne (nodes : List (Place × Node)) (p q : Place) :
    find? (nodes.filter fun entry => entry.1 ≠ p) q = if p = q then none else find? nodes q := by
  induction nodes with
  | nil => simp [find?]
  | cons entry nodes ih =>
      obtain ⟨r, n⟩ := entry
      by_cases hr : r = p
      · subst hr
        rw [List.filter_cons_of_neg (by simp), ih]
        by_cases hp : r = q
        · simp [hp]
        · simp [hp, find?]
      · rw [List.filter_cons_of_pos (by simpa using hr)]
        simp only [find?, ih]
        by_cases hp : p = q
        · subst hp; simp [hr]
        · simp [hp]

theorem node?_erase_self (t : FileTree) {place : Place} (h : place ≠ []) :
    (t.erase place).node? place = none := by
  have := find?_filter_ne t.nodes place place
  simp only [if_true] at this
  simpa [node?, erase, h] using this

/-- Taking away leaves every other place alone. -/
theorem node?_erase_ne (t : FileTree) {place other : Place} (h : place ≠ other) :
    (t.erase place).node? other = t.node? other := by
  have := find?_filter_ne t.nodes place other
  simp only [h, if_false] at this
  simp only [node?, erase]
  split
  · rfl
  · simpa using this

end FileTree

end GettextFill
