import GettextFill.Settings.Place

/-!
# Settings on lines

Settings may stand on lines of their own, each a key, an equals sign and a value. A key with points
names a field inside a field, and one that ends in a pair of brackets adds an item to a list.

`SettingsLines.read` first gathers the values of all keys, then takes objects and lists apart into
their leaves and puts every leaf in the place that its key leads to.
-/

namespace GettextFill.SettingsLines

/-! ### Lines -/

def pair? (line : Text) : Option (Text × Text) :=
  let t := line.dropWhile Text.isBlank
  let isKey (c : Char) : Bool := !Text.isBlank c && c ≠ '='
  let key := t.takeWhile isKey
  match (t.dropWhile isKey).dropWhile Text.isBlank with
  | '=' :: t =>
    let t := t.dropWhile Text.isBlank
    let value := t.takeWhile fun c => !Text.isBreak c
    if key.isEmpty || !(t.drop value.length).all Text.isBlank then none
    else some (key, Text.trim value)
  | _ => none

/-- The key of a list that an item is added to. -/
def listKey? (key : Text) : Option Text :=
  if Text.endsWith ['[', ']'] key then some (key.take (key.length - 2)) else none

/-- A value with one more item, or with the items of one more list. A text goes on instead, and what
counts as false gives way to a list. -/
def add (d : Written) (more : Written) : Except PlaceFlaw Document :=
  match d with
  | some (.list items) => .ok (.list (items ++ more.items))
  | some (.text (c :: t)) =>
    match more.quoted? with
    | some more => .ok (.text (c :: t ++ more))
    | none => .error .notText
  | d => if Document.isSet d then .error .notList else .ok (.list more.items)

/-- The values of some lines, and the names of the fields that were left out of them. -/
structure Gathered where
  values : Dictionary Written := []
  dropped : List Text := []

/-- Values with that of one more line. A list with the name of something that every object answers
cannot be begun. -/
def Gathered.addLine (g : Gathered) (line : Text) : Gathered × Option PlaceFlaw :=
  match pair? line with
  | none => (g, none)
  | some (key, written) =>
    if key = "__proto__" || key = "constructor" then (g, none)
    else
      let (value, dropped) := Written.ofText written
      let g := { g with dropped := g.dropped ++ dropped }
      match listKey? key with
      | none => ({ g with values := g.values.put key value }, none)
      | some key =>
        let known := g.values.get? key
        if known.isNone && Dictionary.isReserved key then (g, some .notList)
        else
          match add known.join value with
          | .ok d => ({ g with values := g.values.put key (some d) }, none)
          | .error flaw => (g, some flaw)

/-- Values with those of more lines, up to the first that has a flaw. -/
def Gathered.addLines (g : Gathered) : List Text → Gathered × Option PlaceFlaw
  | [] => (g, none)
  | line :: rest =>
    match g.addLine line with
    | (g, none) => addLines g rest
    | (g, some flaw) => (g, some flaw)

/-! ### Leaves -/

def behind (key part : Text) : Text := if key.isEmpty then part else key ++ '.' :: part

mutual

/-- The leaves of a document under a key: itself if it has no parts, else the leaves of its parts.
-/
def leaves (key : Text) : Document → List (Text × Document)
  | .list (d :: rest) => itemLeaves key 0 (d :: rest)
  | .object (field :: rest) => fieldLeaves key (field :: rest)
  | d => [(key, d)]

/-- The leaves of the items of a list from a place on. -/
def itemLeaves (key : Text) (place : Nat) : List Document → List (Text × Document)
  | [] => []
  | d :: rest => leaves (behind key (Text.ofNat place)) d ++ itemLeaves key (place + 1) rest

def fieldLeaves (key : Text) : List (Text × Document) → List (Text × Document)
  | [] => []
  | (name, d) :: rest => leaves (behind key name) d ++ fieldLeaves key rest

end

def hasParts : Written → Bool
  | some (.list items) => !items.isEmpty
  | some (.object fields) => !fields.isEmpty
  | _ => false

/-- The leaves of a value under its key. Each comes in the order of documents of the keys behind
that of the value. -/
def leavesOf (key : Text) (value : Written) : List (Text × Written) :=
  if hasParts value then
    (Dictionary.ofPairs (leaves [] (value.getD .null))).map fun (inner, d) =>
      (key ++ '.' :: inner, some d)
  else [(key, value)]

def placeAll (d : Document) : List (Text × Written) → Except PlaceFlaw Document
  | [] => .ok d
  | (key, value) :: rest =>
    match Document.setAt? value ((key.splitOn '.').map Document.Part.ofText) (some d) with
    | .ok d => placeAll (d.getD .null) rest
    | .error flaw => .error flaw

/-- What lines give: their fields, or why they have none, and the names of the fields that were left
out of written documents. -/
structure Reading where
  fields : Except PlaceFlaw (Dictionary Document)
  dropped : List Text

def read (t : Text) : Reading :=
  match Gathered.addLines {} (t.splitOnP fun c => c = '\n' || c = '\r') with
  | (g, some flaw) => { fields := .error flaw, dropped := g.dropped }
  | (g, none) =>
    let leaves := Dictionary.ofPairs (g.values.flatMap fun (key, value) => leavesOf key value)
    { fields := (placeAll (.object []) leaves).map Document.fields, dropped := g.dropped }

end GettextFill.SettingsLines
