import GettextFill.Document
import GettextFill.Text.Quoted

/-!
# Documents on a terminal

The data of a message are shown below it. `Document.shown` sets a list or an object on one line if
it is short and on a line for every part if not; the items of a longer list stand in columns. Texts
are in quotes. What is nested deeper than `shownLevels` is only named.
-/

namespace GettextFill.Document

/-- The most characters of a line that holds several parts. -/
def lineWidth : Nat := 128

def shownItems : Nat := 100

/-! ### Texts -/

/-- A text in quotes. One that does not fit into a line is taken apart behind its line breaks. -/
def shownText (margin : Nat) (t : Text) : Text :=
  let length := t.unitLength
  if 16 < length && lineWidth < length + margin + 4 then
    Text.join (" +\n" ++ List.replicate (margin + 2) ' ') ((Text.endedLines t).map Text.quoted)
  else Text.quoted t

def isPlainKey : Text → Bool
  | [] => false
  | c :: t => Text.isWord c && !Text.isDigit c && t.all Text.isWord

def shownKey (key : Text) : Text := if isPlainKey key then key else Text.quoted key

/-! ### Columns -/

/-- The number of columns in which pieces with these lengths stand so that they cover about a
square, at most twelve. `lines` is the number of lines that the pieces would fill in one column,
with one more for a remark about pieces that are left out. -/
def columns (lengths : List Nat) (lines margin : Nat) : Nat :=
  let count := lengths.length
  let longest := lengths.foldl Nat.max 0
  let width := longest + 2
  let total := lengths.foldl (· + ·) 0 + 2 * count
  if width * 3 + margin < lineWidth && (5 * width < total || longest ≤ 6) then
    let bias := (width.toFloat - total.toFloat / lines.toFloat).sqrt
    let biased := width.toFloat - 3 - bias
    let biased := if biased < 1 then 1 else biased
    let square := ((2.5 * biased * count.toFloat).sqrt / biased + 0.5).floor.toUInt64.toNat
    min (min square ((lineWidth - margin) / width)) 12
  else 1

def rows {α : Type} (count : Nat) (pieces : List α) : List (List α) :=
  (List.range ((pieces.length + count - 1) / count)).map fun n =>
    (pieces.drop (n * count)).take count

/-- A piece with spaces before it or after it up to a width. -/
def pad (before : Bool) (width : Nat) (t : Text) : Text :=
  let spaces := List.replicate (width - t.unitLength) ' '
  if before then spaces ++ t else t ++ spaces

def columnWidths (table : List (List Text)) (count : Nat) : List Nat :=
  (List.range count).map fun n =>
    (table.map fun row => Text.unitLength (row[n]?.getD [])).foldl Nat.max 0

/-- A row of a table. Numbers stand at the right of their columns, other pieces at the left. -/
def shownRow (numeric : Bool) (widths : List Nat) (row : List Text) : Text :=
  let last := row.length - 1
  (row.zipIdx.zip widths).flatMap fun ((t, n), width) =>
    if n = last then (if numeric then pad true width t else t)
    else if numeric then pad true (width + 2) (t ++ ", ")
    else pad false (width + 2) (t ++ ", ")

/-- The pieces of a list in columns; a list of at most six stays as it is. -/
def grouped (numeric : Bool) (lines margin : Nat) (pieces : List Text) : List Text :=
  if pieces.length ≤ 6 then pieces
  else
    let count := columns (pieces.map Text.unitLength) lines margin
    if count ≤ 1 then pieces
    else
      let table := rows count pieces
      table.map (shownRow numeric (columnWidths table count))

/-! ### Lists and objects -/

/-- Pieces between brackets: on one line if they were not set in rows and fit, else with one piece a
line. -/
def enclose (opening closing : Char) (margin : Nat) (inRows : Bool) (pieces : List Text) : Text :=
  let length := (pieces.map Text.unitLength).foldl (· + ·) 0 + 2 * pieces.length + margin + 11
  if !inRows && length ≤ lineWidth && !pieces.any fun t => t.contains '\n' then
    opening :: ' ' :: (Text.join ", " pieces ++ [' ', closing])
  else
    let line : Text := '\n' :: List.replicate margin ' '
    opening :: (line ++ ' ' :: ' ' :: Text.join (',' :: (line ++ [' ', ' '])) pieces ++ line ++
      [closing])

def isNumber : Document → Bool
  | number _ => true
  | _ => false

/-- The pieces of a list: its first items in columns, and how many more there are. -/
def listPieces (numeric : Bool) (margin : Nat) (pieces : List Text) : List Text :=
  let more := pieces.length - shownItems
  grouped numeric (min pieces.length (shownItems + 1)) margin (pieces.take shownItems) ++
    if more = 0 then []
    else [("... " : Text) ++ Text.ofNat more ++ if more = 1 then " more item" else " more items"]

/-- The levels of lists and objects that are shown. -/
def shownLevels : Nat := 3

/-- A number as it is shown, zero with its sign. -/
def shownNumber (n : Number) : Text := if n = .finite true 0 0 then ['-', '0'] else n.text

mutual

/-- A document as it is shown with lines after the first indented and with so many levels. -/
def shownAt (levels margin : Nat) : Document → Text
  | null => "null"
  | bool true => "true"
  | bool false => "false"
  | number n => shownNumber n
  | text t => shownText margin t
  | list items =>
    if items.isEmpty then ['[', ']']
    else if levels = 0 then "[Array]"
    else
      let pieces := shownEach (levels - 1) (margin + 2) items
      let inColumns := listPieces (items.all isNumber) margin pieces
      enclose '[' ']' margin (inColumns.length ≠ min pieces.length (shownItems + 1)) inColumns
  | object fields =>
    if fields.isEmpty then ['\x7b', '\x7d']
    else if levels = 0 then "[Object]"
    else enclose '\x7b' '\x7d' margin false (shownFields (levels - 1) (margin + 2) fields)

def shownEach (levels margin : Nat) : List Document → List Text
  | [] => []
  | d :: rest => shownAt levels margin d :: shownEach levels margin rest

def shownFields (levels margin : Nat) : List (Text × Document) → List Text
  | [] => []
  | (key, d) :: rest =>
    (shownKey key ++ ':' :: ' ' :: shownAt levels margin d) :: shownFields levels margin rest

end

def shown (d : Document) : Text := shownAt shownLevels 0 d

end GettextFill.Document
