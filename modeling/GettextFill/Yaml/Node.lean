import GettextFill.Yaml.Plain
import GettextFill.Yaml.Scalar

/-!
# Documents in YAML

A node is a text, a list or a mapping. Lists and mappings are written in brackets, or as blocks in
which the indentation says what belongs together: the entries of a block begin in one column, and
what an entry holds is indented further. `compose` reads a node that is indented further than its
`parent`, and `read?` a text that holds one document.

Anchors, aliases and tags are not read; a text that has one is refused, and so is a mapping in which
a key is written twice.

Nodes nest up to a depth of `greatestDepth`; a text in which they go deeper is refused. A reader of
nodes is told the `depth` that is left for those inside.

The readers call each other on the rest of the text with a bound on the calls. Each character can be
looked at by a few readers before one goes over it, so the bound is a multiple of the length of the
text.
-/

namespace GettextFill.Yaml

/-- Where a node stands. -/
inductive Context
  /-- Inside brackets. -/
  | flowIn
  /-- As the key of a block entry. -/
  | flowOut
  /-- As an item of a block list. -/
  | blockIn
  /-- As a document or the value of a block entry. -/
  | blockOut
  deriving DecidableEq

def Context.allowsBlocks : Context → Bool
  | flowIn => false
  | flowOut => false
  | blockIn => true
  | blockOut => true

namespace Value

/-- What stands for a node that is not there. -/
def missing : Value := { document := .null, key := "null" }

def ofText (t : Text) : Value := { document := .text t, key := t }

/-- A list or a mapping. As a key it is written as messages quote it. -/
def ofParts (d : Document) : Value := { document := d, key := d.plain }

/-- Whether a value may be a key: a list of lists may not. -/
def isKey (v : Value) : Bool :=
  match v.document with
  | .list items => items.all fun d =>
      match d with
      | .list _ => false
      | _ => true
  | _ => true

end Value

/-- A node that may be missing, and the place behind it. -/
structure Composed where
  found : Bool
  value : Value
  cursor : Cursor

namespace Composed

def nothing (c : Cursor) : Composed := { found := false, value := Value.missing, cursor := c }

def some (v : Value) (c : Cursor) : Composed := { found := true, value := v, cursor := c }

end Composed

/-- Give a key that is not there yet a value. -/
def store (fields : Dictionary Document) (key : Value) (d : Document) :
    Option (Dictionary Document) :=
  if !key.isKey || fields.contains key.key then none else Option.some (fields.put key.key d)

/-- A block mapping in the making. -/
structure MappingDraft where
  fields : Dictionary Document := []
  /-- Whether an entry was read. -/
  detected : Bool := false
  /-- The key that was announced by a question mark and has no value yet. -/
  key : Value := Value.missing
  explicit : Bool := false

namespace MappingDraft

/-- The mapping after a key without a value was given null. -/
def settle (d : MappingDraft) : Option MappingDraft :=
  if d.explicit then
    (store d.fields d.key .null).map fun fields => { fields, detected := d.detected }
  else Option.some d

/-- What was read; nothing if there was no entry. -/
def finish (d : MappingDraft) (c : Cursor) : Option Composed :=
  d.settle.map fun d =>
    if d.detected then Composed.some (Value.ofParts (.object d.fields)) c else Composed.nothing c

end MappingDraft

/-- What may follow an entry of a block of the given indentation that began on a line. -/
inductive Continuation
  | misplaced
  | ended
  | more

def continuation (indent : Nat) (line : Nat) (c : Cursor) : Continuation :=
  if (c.line = line || indent < c.indent) && !c.rest.isEmpty then .misplaced
  else if c.indent < indent then .ended
  else .more

/-- How deep nodes nest, the document and each key and value counted as nodes. -/
def greatestDepth : Nat := 100

/-- A text that was read at a place, unless there was none. -/
def scalar (c : Cursor) (read : Option (Text × Cursor)) (value : Text → Value) : Option Composed :=
  read.map fun (t, after) => if t.isEmpty then Composed.nothing c else Composed.some (value t) after

/-- Read a text, in whichever way it is written. -/
def composeText (context : Context) (indent : Int) (c : Cursor) : Option Composed :=
  let found (read : Option (Text × Cursor)) : Option Composed :=
    read.map fun (t, after) => Composed.some (Value.ofText t) after
  match c.rest with
  | [] => Option.some (Composed.nothing c)
  | '\'' :: _ => found (single c.step)
  | '"' :: _ => found (double c.step)
  | d :: _ =>
    if context.allowsBlocks && (d = '|' || d = '>') then found (block (d = '>') indent.toNat c.step)
    else if d = '*' then none
    else if startsPlain (context = .flowIn) c.rest then
      scalar c (plain (context = .flowIn) indent c) Plain.read
    else Option.some (Composed.nothing c)

mutual

/-- Read a node at a place. With `seeks` it may stand on a later line; with `compact` a block may
begin in the middle of a line. -/
def compose : Nat → Nat → Int → Context → Bool → Bool → Cursor → Option Composed
  | 0, _, _, _, _, _, _ => none
  | _, 0, _, _, _, _, _ => none
  | fuel + 1, depth + 1, parent, context, seeks, compact, start =>
    let (c, breaks) := if seeks then start.skip true else (start, 0)
    let further := breaks = 0 || parent < c.indent
    let level := breaks ≠ 0 && (c.indent : Int) = parent
    let blocks := context.allowsBlocks && (breaks ≠ 0 || compact)
    let indent := if context.allowsBlocks then parent + 1 else parent
    if further then
      if c.next? = Option.some '!' || c.next? = Option.some '&' then none
      else
        let nothing : Option Composed := Option.some (Composed.nothing c)
        match if blocks then composeBlock fuel depth c.column indent c else nothing with
        | none => none
        | Option.some node =>
          if node.found then Option.some node
          else
            match c.next? with
            | Option.some '[' => composeFlow fuel depth false indent true [] [] c.step
            | Option.some '{' => composeFlow fuel depth true indent true [] [] c.step
            | _ => composeText context indent c
    else if level && context = .blockOut && blocks then
      if c.tabbed then Option.some (Composed.nothing c)
      else composeItems fuel depth c.column false [] c
    else Option.some (Composed.nothing c)

/-- Read a block list or a block mapping. Behind a tabulator there is neither. -/
def composeBlock : Nat → Nat → Nat → Int → Cursor → Option Composed
  | 0, _, _, _, _ => none
  | fuel + 1, depth, column, indent, c =>
    if c.tabbed then Option.some (Composed.nothing c)
    else
      match composeItems fuel depth column false [] c with
      | none => none
      | Option.some node =>
        if node.found then Option.some node else composeEntries fuel depth column indent {} c

/-- Read the items of a block list from a place on. -/
def composeItems : Nat → Nat → Nat → Bool → List Document → Cursor → Option Composed
  | 0, _, _, _, _, _ => none
  | fuel + 1, depth, column, detected, items, c =>
    let finish : Option Composed :=
      Option.some
        (if detected then Composed.some (Value.ofParts (.list items)) c else Composed.nothing c)
    match c.rest with
    | '-' :: rest =>
      if c.tabbed then none
      else if !gapAhead rest then finish
      else
        let (behind, breaks) := c.step.skip true
        if breaks ≠ 0 && behind.indent ≤ column then
          composeItems fuel depth column true (items ++ [.null]) behind
        else
          match compose fuel depth column .blockIn false true behind with
          | none => none
          | Option.some node =>
            let items := items ++ [node.value.document]
            let (after, _) := node.cursor.skip true
            match continuation column behind.line after with
            | .misplaced => none
            | .ended => Option.some (Composed.some (Value.ofParts (.list items)) after)
            | .more => composeItems fuel depth column true items after
    | [] => finish
    | _ => if c.tabbed then none else finish

/-- Read the entries of a block mapping from a place on. -/
def composeEntries : Nat → Nat → Nat → Int → MappingDraft → Cursor → Option Composed
  | 0, _, _, _, _, _ => none
  | fuel + 1, depth, column, indent, draft, c =>
    match c.rest with
    | [] => draft.finish c
    | d :: rest =>
      if !draft.explicit && c.tabbed then none
      else if d = '?' && gapAhead rest then
        match draft.settle with
        | none => none
        | Option.some draft =>
          composeValue fuel depth column indent
            { draft with detected := true, key := Value.missing, explicit := true } true c.line
            c.step
      else if d = ':' && gapAhead rest then
        if draft.explicit then
          composeValue fuel depth column indent { draft with explicit := false } true c.line c.step
        else none
      else
        match compose fuel depth indent .flowOut false true c with
        | none => none
        | Option.some node =>
          if !node.found then draft.finish c
          else
            let after := node.cursor.past isWhite
            if node.cursor.line = c.line && after.next? = Option.some ':' then
              if !gapAhead after.step.rest then none
              else
                match draft.settle with
                | none => none
                | Option.some draft =>
                  composeValue fuel depth column indent
                    { draft with detected := true, key := node.value, explicit := false } false
                    c.line after.step
            else if draft.detected then none
            else if node.cursor.line = c.line then Option.some { node with cursor := after }
            else Option.some node

/-- Read what follows the sign of an entry that began on `line`, and the entries after it. -/
def composeValue : Nat → Nat → Nat → Int → MappingDraft → Bool → Nat → Cursor → Option Composed
  | 0, _, _, _, _, _, _, _ => none
  | fuel + 1, depth, column, indent, draft, compact, line, c =>
    match compose fuel depth column .blockOut true compact c with
    | none => none
    | Option.some node =>
      let stored : Option MappingDraft :=
        if draft.explicit then
          Option.some { draft with key := if node.found then node.value else draft.key }
        else
          (store draft.fields draft.key node.value.document).map fun fields =>
            { fields, detected := draft.detected }
      match stored with
      | none => none
      | Option.some draft =>
        let (after, _) := node.cursor.skip true
        match continuation column line after with
        | .misplaced => none
        | .ended => draft.finish after
        | .more => composeEntries fuel depth column indent draft after

/-- Read a list or a mapping in brackets behind the opening one. `expects` says whether an entry may
follow. An item of a list may be a pair, which is a mapping of one entry; `fields` is empty in a
list. -/
def composeFlow : Nat → Nat → Bool → Int → Bool → List Document → Dictionary Document → Cursor →
    Option Composed
  | 0, _, _, _, _, _, _, _ => none
  | fuel + 1, depth, isMapping, indent, expects, items, fields, start =>
    let (c, _) := start.skip true
    match c.rest with
    | [] => none
    | d :: rest =>
      if d = (if isMapping then '}' else ']') then
        let parts := if isMapping then Document.object fields else .list items
        Option.some (Composed.some (Value.ofParts parts) c.step)
      else if !expects || d = ',' then none
      else
        let explicit := d = '?' && gapAhead rest
        let c := if explicit then (c.step.skip true).1 else c
        match compose fuel depth indent .flowIn false true c with
        | none => none
        | Option.some key =>
          let (after, _) := key.cursor.skip true
          let paired := (explicit || after.line = c.line) && after.next? = Option.some ':'
          let value? : Option Composed :=
            if paired then compose fuel depth indent .flowIn false true (after.step.skip true).1
            else Option.some (Composed.nothing after)
          match value? with
          | none => none
          | Option.some value =>
            let entry := value.value.document
            let keyed := isMapping || explicit || paired
            match if keyed then store fields key.value entry else Option.some fields with
            | none => none
            | Option.some stored =>
              let item := if keyed then Document.object stored else key.value.document
              let (after, _) := value.cursor.skip true
              let expects := after.next? = Option.some ','
              composeFlow fuel depth isMapping indent expects (items ++ [item])
                (if isMapping then stored else fields) (if expects then after.step else after)

end

/-! ### Documents -/

def words : Nat → Text → List Text
  | 0, _ => []
  | fuel + 1, t =>
    match t.dropWhile isWhite with
    | [] => []
    | '#' :: _ => []
    | d :: rest =>
      let t := d :: rest
      t.takeWhile (fun e => !isWhite e) :: words fuel (t.dropWhile fun e => !isWhite e)

/-- Whether a text is a version that can be read: two numbers with a point between them, of which
the first is one. -/
def isVersion (t : Text) : Bool :=
  let major := t.takeWhile Text.isDigit
  match t.dropWhile Text.isDigit with
  | '.' :: minor => Text.digitsValue major = 1 && !minor.isEmpty && minor.all Text.isDigit
  | _ => false

/-- Whether a directive makes sense, which stands behind a percent sign; `versioned` says whether a
version was given before. -/
def directive? (versioned : Bool) (line : Text) : Option Bool :=
  let name := line.takeWhile fun c => !isWhite c
  let arguments := words (line.length + 1) (line.dropWhile fun c => !isWhite c)
  if name.isEmpty then none
  else if name = "YAML" then
    match arguments with
    | [version] => if versioned || !isVersion version then none else some true
    | _ => none
  else if name = "TAG" then (if arguments.length = 2 then some versioned else none)
  else some versioned

/-- Go over the directives before a document; whether there was one is told. -/
def directives : Nat → Bool → Bool → Cursor → Option (Bool × Cursor)
  | 0, _, _, _ => none
  | fuel + 1, any, versioned, start =>
    let (c, _) := start.skip true
    if 0 < c.indent || c.next? ≠ some '%' then some (any, c)
    else
      match directive? versioned (c.rest.tail.takeWhile fun d => !isEnd d) with
      | none => none
      | some versioned =>
        let c := c.past fun d => !isEnd d
        directives fuel true versioned ((c.newline?).getD c)

def document? (start : Cursor) : Option (Document × Cursor) :=
  match directives (start.rest.length + 1) false false start with
  | none => none
  | some (any, c) =>
    let (c, _) := c.skip true
    let marked := c.indent = 0 && Text.startsWith "---" c.rest
    if any && !marked then none
    else
      let c := if marked then ((c.steps 3).skip true).1 else c
      match compose (8 * c.rest.length + 16) greatestDepth ((c.indent : Int) - 1) .blockOut false
          true c with
      | none => none
      | some node =>
        let (after, _) := node.cursor.skip true
        if after.atDocumentMark then
          some (node.value.document,
            if after.next? = some '.' then ((after.steps 3).skip true).1 else after)
        else if after.rest.isEmpty then some (node.value.document, after)
        else none

/-- Read documents one after the other. The last character of the text ends a line and is no
document by itself. -/
def documents : Nat → Cursor → Option (List Document)
  | 0, _ => none
  | fuel + 1, c =>
    if c.rest.length ≤ 1 then some []
    else
      match document? c with
      | none => none
      | some (d, after) => (documents fuel after).map (d :: ·)

/-- The document that a text holds. Without one it is null. -/
def read? (t : Text) : Option Document :=
  let ended := match t.getLast? with
    | none => t
    | some c => if isEnd c then t else t ++ ['\n']
  let body := Text.dropMark ended
  if body.contains '\x00' then none
  else
    let start : Cursor := { rest := body }
    match documents (body.length + 2) start.margin with
    | some [] => some .null
    | some [d] => some d
    | _ => none

end GettextFill.Yaml
