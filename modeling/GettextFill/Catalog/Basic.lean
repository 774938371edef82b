import GettextFill.Catalog.Stage

/-!
# Catalogs

A catalog is the list of its entries with what is needed to write it back: the lines after the last
entry that belong to none, the terminator of its lines and whether a byte order mark stands before
it. `Catalog.ofText` reads one; it accepts every text. `Catalog.toText` writes one, with one blank
line between entries and a terminator at the end.
-/

namespace GettextFill

/-- The terminators of lines. -/
inductive LineEnding
  | lf
  | crlf
  deriving DecidableEq

def LineEnding.text : LineEnding → Text
  | lf => ['\n']
  | crlf => ['\r', '\n']

/-- The terminator that most lines of a text have; the shorter one unless it is outnumbered. -/
def LineEnding.ofText (t : Text) : LineEnding :=
  let terminated := (t.splitOn '\n').dropLast
  let long := terminated.countP fun line => line.getLast? = some '\r'
  if terminated.length - long < long then crlf else lf

/-- A catalog as it is read from a text. -/
structure Catalog where
  entries : List Entry := []
  /-- Comments after the last entry that belong to no entry, and the context lines after them. -/
  trailing : List Text := []
  ending : LineEnding := .lf
  marked : Bool := false
  /-- The numbers, from one, of the lines that belong to no entry. -/
  ignored : List Nat := []
  /-- The numbers, from one, of the comment lines inside a field. -/
  moved : List Nat := []
  deriving DecidableEq

/-- A catalog in the making. -/
structure Draft where
  entries : List Entry := []
  pending : Entry := {}
  stage : Stage := .idle
  /-- Whether a blank line has come after the comments gathered so far. -/
  blankHeld : Bool := false
  ignored : List Nat := []
  moved : List Nat := []
  deriving DecidableEq

namespace Draft

def complete (d : Draft) : Draft :=
  { d with entries := d.entries ++ [d.pending], pending := {}, blankHeld := false }

/-- Take a line into the entry being gathered. A blank line held back is recorded first if comments
stand before it. -/
def store (d : Draft) (slot : Slot) (line : Text) : Draft :=
  let pending :=
    if d.blankHeld && !d.pending.comments.isEmpty then d.pending.push .comments [] else d.pending
  { d with pending := pending.push slot line, blankHeld := false }

/-- Let the line of the given number meet its fate. -/
def meet (d : Draft) (fate : Fate) (number : Nat) (line : Text) : Draft :=
  match fate with
  | .skip => d
  | .hold => { d with blankHeld := true }
  | .ignore => { d with ignored := d.ignored ++ [number] }
  | .store slot moved =>
    store { d with moved := if moved then d.moved ++ [number] else d.moved } slot line

def feed (d : Draft) (number : Nat) (line : Text) : Draft :=
  let step := d.stage.transition (LineKind.ofLine line)
  let d := if step.seals then d.complete else d
  { d.meet step.fate number line with stage := step.next }

/-- Take lines numbered upwards from `number`. -/
def feedAll (d : Draft) (number : Nat) : List Text → Draft
  | [] => d
  | line :: rest => feedAll (d.feed number line) (number + 1) rest

@[simp] theorem feedAll_nil (d : Draft) (number : Nat) : d.feedAll number [] = d := rfl

theorem feedAll_cons (d : Draft) (number : Nat) (line : Text) (rest : List Text) :
    d.feedAll number (line :: rest) = (d.feed number line).feedAll (number + 1) rest := rfl

/-- Lines taken in two parts are taken as one. -/
theorem feedAll_append (d : Draft) (number : Nat) (s t : List Text) :
    d.feedAll number (s ++ t) = (d.feedAll number s).feedAll (number + s.length) t := by
  induction s generalizing d number with
  | nil => rfl
  | cons line s ih =>
      rw [List.cons_append, feedAll_cons, feedAll_cons, ih, List.length_cons]
      congr 1
      omega

/-- The catalog at the end of the lines. An entry needs a source; what was gathered without one
trails. -/
def finish (d : Draft) (ending : LineEnding) (marked : Bool) : Catalog :=
  if d.pending.source.isEmpty then
    { entries := d.entries, trailing := d.pending.comments ++ d.pending.context, ending, marked,
      ignored := d.ignored, moved := d.moved }
  else
    { entries := d.entries ++ [d.pending], trailing := [], ending, marked,
      ignored := d.ignored, moved := d.moved }

end Draft

namespace Catalog

def ofText (t : Text) : Catalog :=
  let body := Text.dropMark t
  (Draft.feedAll {} 1 (Text.lines body)).finish (LineEnding.ofText body)
    (t.head? = some Text.byteOrderMark)

/-- The blocks of lines that a catalog is written as. -/
def blocks (c : Catalog) : List (List Text) :=
  c.entries.map Entry.lines ++ if c.trailing.isEmpty then [] else [c.trailing]

/-- The lines of a catalog, with an empty line between blocks. -/
def lines (c : Catalog) : List Text := [[]].intercalate c.blocks

/-- Write a catalog. Without a block there is nothing to write, not even a mark. -/
def toText (c : Catalog) : Text :=
  if c.blocks.isEmpty then []
  else
    (if c.marked then [Text.byteOrderMark] else []) ++
      Text.join c.ending.text (c.lines ++ [[]])

end Catalog

end GettextFill
