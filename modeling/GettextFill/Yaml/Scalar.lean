import GettextFill.Yaml.Cursor

/-!
# Text in YAML

A text is written in one of four ways: without quotes, in single or in double quotes, or as a block
of lines. A text without quotes and one in quotes may go over several lines, which are folded into
one: a single break is a space, and of several the first is dropped. A block keeps its lines or
folds them.

Every reader takes a cursor before the text and gives the text with the cursor behind it. None of
them reads on from a character that may not stand in a text.
-/

namespace GettextFill.Yaml

/-- What stands for line breaks that are folded. -/
def folded (breaks : Nat) : Text :=
  if breaks = 1 then [' '] else List.replicate (breaks - 1) '\n'

/-- Whether a character may stand in a text without quotes or in a block. -/
def isPrintable (c : Char) : Bool :=
  let n := c.toNat
  !(n < 0x20 && n ≠ 9 && n ≠ 10 && n ≠ 13) && !(0x7f ≤ n && n ≤ 0x9f && n ≠ 0x85) &&
    n ≠ 0xfffe && n ≠ 0xffff

def isQuotable (c : Char) : Bool := c = '\t' || ' ' ≤ c

/-- A text of which every character may stand where it does. -/
def checked (allowed : Char → Bool) (t : Text) : Option Text :=
  if t.all allowed then some t else none

/-- The characters that end an entry inside brackets. -/
def isFlowIndicator (c : Char) : Bool := c = ',' || c = '[' || c = ']' || c = '{' || c = '}'

/-! ### Text without quotes -/

/-- The characters that no text without quotes begins with. -/
def isIndicator (c : Char) : Bool :=
  isFlowIndicator c || c = '#' || c = '&' || c = '*' || c = '!' || c = '|' || c = '>' || c = '\'' ||
    c = '"' || c = '%' || c = '@' || c = '`'

/-- Whether what follows a character sets it apart. -/
def setApart (flow : Bool) : Text → Bool
  | [] => false
  | c :: _ => isGap c || (flow && isFlowIndicator c)

/-- Whether a text without quotes may begin with what comes next. -/
def startsPlain (flow : Bool) : Text → Bool
  | [] => false
  | c :: rest =>
    !isGap c && !isIndicator c && !((c = '?' || c = '-') && setApart flow rest)

/-- A text without quotes in the making. -/
structure PlainDraft where
  /-- What was read and folded. -/
  done : Text := []
  /-- What was read since the last fold. -/
  piece : Text := []
  /-- The blanks after it. -/
  blanks : Text := []
  /-- The breaks after it, if there were any. -/
  breaks : Option Nat := none
  /-- The place behind the last character that is no blank. -/
  last : Cursor

namespace PlainDraft

/-- All that was read; none if a character may not stand there. -/
def finish (d : PlainDraft) : Option Text :=
  (checked isPrintable d.piece).map (d.done ++ ·)

/-- One more character, which is followed by `after`. -/
def push (d : PlainDraft) (c : Char) (after : Cursor) : Option PlainDraft :=
  let d? : Option PlainDraft :=
    match d.breaks with
    | none => some d
    | some n =>
      (checked isPrintable d.piece).map fun piece =>
        { done := d.done ++ piece ++ folded n, last := d.last }
  d?.map fun d =>
    if isWhite c then { d with blanks := d.blanks ++ [c] }
    else { d with piece := d.piece ++ d.blanks ++ [c], blanks := [], last := after }

end PlainDraft

/-- Whether a text without quotes ends before what comes next. -/
def endsPlain (flow : Bool) (c : Cursor) : Bool :=
  match c.rest with
  | [] => true
  | ':' :: rest => setApart flow rest
  | '#' :: _ => (c.before.map isGap).getD false
  | d :: _ => c.atDocumentMark || (flow && isFlowIndicator d)

/-- Read on in a text without quotes; its further lines are indented by at least `indent`. -/
def plainFrom (flow : Bool) (indent : Int) : Nat → PlainDraft → Cursor → Option (Text × Cursor)
  | 0, _, _ => none
  | fuel + 1, draft, c =>
    if endsPlain flow c then draft.finish.map fun t => (t, c)
    else
      match c.rest with
      | [] => draft.finish.map fun t => (t, c)
      | d :: _ =>
        if isEnd d then
          let (next, breaks) := c.skip false
          if indent ≤ next.indent then
            plainFrom flow indent fuel { draft with breaks := some breaks } next
          else draft.finish.map fun t => (t, { draft.last with tabbed := next.tabbed })
        else
          match draft.push d c.step with
          | none => none
          | some draft => plainFrom flow indent fuel draft c.step

/-- Read a text without quotes. Nothing is read where the text would be empty. -/
def plain (flow : Bool) (indent : Int) (c : Cursor) : Option (Text × Cursor) :=
  plainFrom flow indent (2 * c.rest.length + 2) { last := c } c

/-! ### Text in quotes -/

def dropBlanks (t : Text) : Text := (t.reverse.dropWhile isWhite).reverse

/-- A text in quotes in the making: what was read and folded, and what was read since. The blanks
before a break are no part of the text, unless they were written as escapes. -/
structure QuotedDraft where
  done : Text := []
  piece : Text := []

/-- The piece is complete; none if a character may not stand there. -/
def QuotedDraft.seal? (d : QuotedDraft) : Option Text :=
  (checked isQuotable d.piece).map (d.done ++ ·)

/-- Read on in single quotes. A quote that is written twice stands for itself. -/
def singleFrom : Nat → QuotedDraft → Cursor → Option (Text × Cursor)
  | 0, _, _ => none
  | fuel + 1, d, c =>
    match c.rest with
    | [] => none
    | '\'' :: '\'' :: _ =>
      match d.seal? with
      | none => none
      | some done => singleFrom fuel { done, piece := ['\''] } (c.steps 2)
    | '\'' :: _ => d.seal?.map fun t => (t, c.step)
    | e :: _ =>
      if isEnd e then
        let (next, breaks) := c.skip false
        match { d with piece := dropBlanks d.piece }.seal? with
        | none => none
        | some done => singleFrom fuel { done := done ++ folded breaks } next
      else if c.atDocumentMark then none
      else singleFrom fuel { d with piece := d.piece ++ [e] } c.step

/-- The character that a letter stands for after a backslash. -/
def escaped? : Char → Option Char
  | '0' => some '\x00'
  | 'a' => some '\x07'
  | 'b' => some '\x08'
  | 't' => some '\t'
  | '\t' => some '\t'
  | 'n' => some '\n'
  | 'v' => some '\x0b'
  | 'f' => some '\x0c'
  | 'r' => some '\r'
  | 'e' => some '\x1b'
  | ' ' => some ' '
  | '"' => some '"'
  | '/' => some '/'
  | '\\' => some '\\'
  | 'N' => some '\u0085'
  | '_' => some '\u00a0'
  | 'L' => some '\u2028'
  | 'P' => some '\u2029'
  | _ => none

/-- The number of digits in base sixteen after a letter. -/
def hexDigits? : Char → Option Nat
  | 'x' => some 2
  | 'u' => some 4
  | 'U' => some 8
  | _ => none

def hexCode? (t : Text) : Option Nat :=
  t.foldl (fun n? c => n?.bind fun n => (Text.hexValue? c).map (16 * n + ·)) (some 0)

/-- Read on in double quotes. What was read is a list of codes, because a character may be written
as two halves. -/
def doubleFrom : Nat → List Nat → Text → Cursor → Option (Text × Cursor)
  | 0, _, _, _ => none
  | fuel + 1, done, piece, c =>
    let with? (piece : Text) : Option (List Nat) :=
      (checked isQuotable piece).map fun t => done ++ t.map Char.toNat
    match c.rest with
    | [] => none
    | '"' :: _ => (with? piece).map fun codes => (Text.ofCodes codes, c.step)
    | '\\' :: e :: rest =>
      match with? piece with
      | none => none
      | some codes =>
        if isEnd e then doubleFrom fuel codes [] (c.step.skip false).1
        else
          match escaped? e, hexDigits? e with
          | some e, _ => doubleFrom fuel (codes ++ [e.toNat]) [] (c.steps 2)
          | none, some n =>
            if rest.length < n then none
            else
              match hexCode? (rest.take n) with
              | none => none
              | some code => doubleFrom fuel (codes ++ [code]) [] (c.steps (n + 2))
          | none, none => none
    | e :: _ =>
      if isEnd e then
        let (next, breaks) := c.skip false
        match with? (dropBlanks piece) with
        | none => none
        | some codes => doubleFrom fuel (codes ++ (folded breaks).map Char.toNat) [] next
      else if c.atDocumentMark then none
      else doubleFrom fuel done (piece ++ [e]) c.step

/-- Read a text in single quotes behind the first of them. -/
def single (c : Cursor) : Option (Text × Cursor) := singleFrom (c.rest.length + 1) {} c

/-- Read a text in double quotes behind the first of them. -/
def double (c : Cursor) : Option (Text × Cursor) := doubleFrom (c.rest.length + 1) [] [] c

/-! ### Blocks of lines -/

/-- What becomes of the breaks at the end of a block. -/
inductive Chomping
  | clip
  | strip
  | keep
  deriving DecidableEq

/-- The head of a block. -/
structure BlockHead where
  folds : Bool
  chomping : Chomping := .clip
  /-- How far the lines are indented, if that is said. -/
  indent : Option Nat := none

/-- Read the signs after the mark of a block; `parent` is how far the lines are indented at least.
-/
def blockHead (parent : Nat) : Nat → BlockHead → Cursor → Option (BlockHead × Cursor)
  | 0, _, _ => none
  | fuel + 1, head, c =>
    match c.rest with
    | [] => some (head, c)
    | d :: _ =>
      if d = '+' || d = '-' then
        if head.chomping = .clip then
          blockHead parent fuel
            { head with chomping := if d = '+' then .keep else .strip } c.step
        else none
      else if Text.isDigit d then
        if d = '0' || head.indent.isSome then none
        else
          blockHead parent fuel { head with indent := some (parent + (d.toNat - '1'.toNat)) } c.step
      else some (head, c)

/-- A block in the making. -/
structure BlockDraft where
  text : Text := []
  /-- How far the lines are indented; before the first line that is not empty, how far the lines so
  far are. -/
  indent : Nat
  /-- Whether the indentation is settled. -/
  settled : Bool
  /-- Empty lines since the last line that is not. -/
  empty : Nat := 0
  /-- Whether a line that is not empty was read. -/
  started : Bool := false
  /-- Whether the last such line was indented further. -/
  further : Bool := false

namespace BlockDraft

/-- Breaks since the last line that is not empty. -/
def breaks (d : BlockDraft) : Text :=
  List.replicate (if d.started then d.empty + 1 else d.empty) '\n'

/-- The block before a line that begins with `c`. -/
def separate (d : BlockDraft) (folds : Bool) (c : Option Char) : BlockDraft :=
  if !folds then { d with text := d.text ++ d.breaks }
  else if (c.map isWhite).getD false then { d with text := d.text ++ d.breaks, further := true }
  else if d.further then
    { d with text := d.text ++ List.replicate (d.empty + 1) '\n', further := false }
  else if d.empty = 0 then { d with text := if d.started then d.text ++ [' '] else d.text }
  else { d with text := d.text ++ List.replicate d.empty '\n' }

def chomp (d : BlockDraft) : Chomping → Text
  | .keep => d.text ++ d.breaks
  | .clip => if d.started then d.text ++ ['\n'] else d.text
  | .strip => d.text

end BlockDraft

/-- The spaces that a line of a block begins with, up to `most` of them if that is settled. -/
def blockMargin (settled : Bool) (most : Nat) (c : Cursor) : Cursor :=
  let spaces := (c.rest.takeWhile fun d => d = ' ').length
  let n := if settled then min spaces most else spaces
  { c.steps n with indent := n }

/-- Read the lines of a block from the end of a line on. Unless the head says so, no block has lines
that are not indented at all. -/
def blockLines (head : BlockHead) : Nat → BlockDraft → Cursor → Option (Text × Cursor)
  | 0, _, _ => none
  | fuel + 1, d, c =>
    match c.rest, c.newline? with
    | [], _ => some (d.text, c)
    | _, none => none
    | _, some c =>
      let c := blockMargin d.settled d.indent c
      let d := if !d.settled && d.indent < c.indent then { d with indent := c.indent } else d
      if (c.next?.map isEnd).getD false then blockLines head fuel { d with empty := d.empty + 1 } c
      else if !d.settled && d.indent = 0 then none
      else if c.indent < d.indent then some (d.chomp head.chomping, c)
      else
        let d := d.separate head.folds c.next?
        let line := c.rest.takeWhile fun e => !isEnd e
        match checked isPrintable line with
        | none => none
        | some line =>
          blockLines head fuel
            { d with text := d.text ++ line, settled := true, started := true, empty := 0 }
            (c.past fun e => !isEnd e)

/-- Read a block of lines behind its mark, which says whether lines are folded. -/
def block (folds : Bool) (parent : Nat) (c : Cursor) : Option (Text × Cursor) :=
  match blockHead parent (c.rest.length + 1) { folds } c with
  | none => none
  | some (head, c) =>
    let c :=
      match c.next? with
      | some d =>
        if isWhite d then
          let c := c.past isWhite
          if c.next? = some '#' then c.past fun e => !isEnd e else c
        else c
      | none => c
    blockLines head (c.rest.length + 1)
      { indent := head.indent.getD parent, settled := head.indent.isSome } c

end GettextFill.Yaml
