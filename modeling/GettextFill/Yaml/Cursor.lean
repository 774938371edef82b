import GettextFill.Text.Units

/-!
# Places in a YAML text

Reading YAML depends on where a character stands: on its line, in its column, and on how far the
line is indented. A cursor knows this together with the text that is left.

`Cursor.skip` goes over blanks, comments and line breaks to the next thing to be read and counts the
breaks; how many there are decides how lines of text are folded.
-/

namespace GettextFill.Yaml

/-- A place in a text with all that is left to read. -/
structure Cursor where
  rest : Text
  /-- The character before the place. -/
  before : Option Char := none
  line : Nat := 0
  /-- Units since the beginning of the line. -/
  column : Nat := 0
  /-- The number of spaces that the line begins with. -/
  indent : Nat := 0
  /-- Whether a tabulator was met among the blanks of the line. -/
  tabbed : Bool := false

def isWhite (c : Char) : Bool := c = ' ' || c = '\t'

def isEnd (c : Char) : Bool := c = '\n' || c = '\r'

def isGap (c : Char) : Bool := isWhite c || isEnd c

/-- Whether nothing or a separating character comes first. -/
def gapOrEmpty : Text → Bool
  | [] => true
  | c :: _ => isGap c

/-- Whether a separating character comes first. -/
def gapAhead : Text → Bool
  | [] => false
  | c :: _ => isGap c

namespace Cursor

def next? (c : Cursor) : Option Char := c.rest.head?

/-- Go over the first characters that satisfy a condition, none of which ends a line. -/
def past (c : Cursor) (p : Char → Bool) : Cursor :=
  let taken := c.rest.takeWhile p
  { c with
    rest := c.rest.dropWhile p
    before := match taken.getLast? with
      | some d => some d
      | none => c.before
    column := c.column + Text.unitLength taken }

/-- Go over one character that does not end a line. -/
def step (c : Cursor) : Cursor :=
  match c.rest with
  | [] => c
  | d :: rest =>
    { c with rest, before := some d, column := c.column + (Text.charUnits d).length }

def steps (c : Cursor) : Nat → Cursor
  | 0 => c
  | n + 1 => c.step.steps n

/-- Go over spaces and tabulators, and remember whether there was a tabulator. -/
def blanks (c : Cursor) : Cursor :=
  { c.past isWhite with tabbed := c.tabbed || (c.rest.takeWhile isWhite).contains '\t' }

/-- The beginning of the line after the break that comes next. -/
def newline? (c : Cursor) : Option Cursor :=
  let start (rest : Text) : Cursor :=
    { c with rest, before := some '\n', line := c.line + 1, column := 0, tabbed := false }
  match c.rest with
  | '\r' :: '\n' :: rest => some (start rest)
  | '\r' :: rest => some (start rest)
  | '\n' :: rest => some (start rest)
  | _ => none

/-- Go over the spaces that a line begins with. -/
def margin (c : Cursor) : Cursor :=
  { c.past (fun d => d = ' ') with indent := (c.rest.takeWhile fun d => d = ' ').length }

/-- Go over blanks, line breaks and, if `comments` is set, comments. The number of breaks is
counted; at most `fuel` are passed. -/
def skipFor (comments : Bool) : Nat → Cursor → Cursor × Nat
  | 0, c => (c, 0)
  | fuel + 1, c =>
    let c := c.blanks
    let c := if comments && c.next? = some '#' then c.past fun d => !isEnd d else c
    match c.newline? with
    | some c =>
      let (c, n) := skipFor comments fuel c.margin
      (c, n + 1)
    | none => (c, 0)

def skip (comments : Bool) (c : Cursor) : Cursor × Nat := skipFor comments (c.rest.length + 1) c

/-- Whether a mark between documents comes next: three hyphens or three points alone. -/
def atMark (c : Cursor) : Bool :=
  match c.rest with
  | '-' :: '-' :: '-' :: rest => gapOrEmpty rest
  | '.' :: '.' :: '.' :: rest => gapOrEmpty rest
  | _ => false

/-- Whether a line begins with a mark between documents. -/
def atDocumentMark (c : Cursor) : Bool := c.column = 0 && c.atMark

end Cursor

end GettextFill.Yaml
