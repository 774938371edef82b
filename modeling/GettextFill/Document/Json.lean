import GettextFill.Document
import GettextFill.Text.Units

/-!
# Documents in JSON

`Json.read?` reads a text that is one JSON value and nothing else; `Json.write` writes a document,
on one line or with one field a line. Reading puts the keys of an object in the order of documents
and keeps the last value of a key that is written twice.

Values nest, so the reader recurses on the rest of the text. Every step takes at least one character
away, and the recursion is bounded by the length of the text.
-/

namespace GettextFill.Json

/-! ### Reading -/

/-- The characters that may stand between the parts of a value. -/
def isSpace (c : Char) : Bool := c = ' ' || c = '\t' || c = '\n' || c = '\r'

/-- What follows the spaces at the beginning of a text. -/
def skipSpaces (t : Text) : Text := t.dropWhile isSpace

/-- The code that four digits in base sixteen stand for. -/
def fourDigits? : Text → Option (Nat × Text)
  | a :: b :: c :: d :: t =>
    match Text.hexValue? a, Text.hexValue? b, Text.hexValue? c, Text.hexValue? d with
    | some a, some b, some c, some d => some (((a * 16 + b) * 16 + c) * 16 + d, t)
    | _, _, _, _ => none
  | _ => none

/-- The character that a letter stands for after a backslash. -/
def escaped? : Char → Option Char
  | '"' => some '"'
  | '\\' => some '\\'
  | '/' => some '/'
  | 'b' => some '\x08'
  | 'f' => some '\x0c'
  | 'n' => some '\n'
  | 'r' => some '\r'
  | 't' => some '\t'
  | _ => none

/-- The codes of a string up to its closing quote, and what follows it. -/
def codes? : Nat → Text → Option (List Nat × Text)
  | 0, _ => none
  | _ + 1, [] => none
  | _ + 1, '"' :: t => some ([], t)
  | fuel + 1, '\\' :: 'u' :: t =>
    match fourDigits? t with
    | some (n, t) => (codes? fuel t).map fun (ns, t) => (n :: ns, t)
    | none => none
  | fuel + 1, '\\' :: c :: t =>
    match escaped? c with
    | some c => (codes? fuel t).map fun (ns, t) => (c.toNat :: ns, t)
    | none => none
  | fuel + 1, c :: t =>
    if c < ' ' || c = '\\' then none
    else (codes? fuel t).map fun (ns, t) => (c.toNat :: ns, t)

/-- A string after its opening quote, and what follows it. -/
def string? (t : Text) : Option (Text × Text) :=
  (codes? (t.length + 1) t).map fun (codes, t) => (Text.ofCodes codes, t)

/-- A word of JSON or a number, and what follows it. -/
def scalar? (t : Text) : Option (Document × Text) :=
  match Text.after? "true" t, Text.after? "false" t, Text.after? "null" t with
  | some t, _, _ => some (.bool true, t)
  | _, some t, _ => some (.bool false, t)
  | _, _, some t => some (.null, t)
  | none, none, none => (Number.read? t).map fun (n, t) => (.number n, t)

mutual

/-- A value at the beginning of a text, and what follows it. -/
def value? : Nat → Text → Option (Document × Text)
  | 0, _ => none
  | fuel + 1, t =>
    match skipSpaces t with
    | '"' :: t => (string? t).map fun (s, t) => (.text s, t)
    | '[' :: t =>
      match skipSpaces t with
      | ']' :: t => some (.list [], t)
      | t => (items? fuel t).map fun (items, t) => (.list items, t)
    | '{' :: t =>
      match skipSpaces t with
      | '}' :: t => some (.object [], t)
      | t => (fields? fuel t).map fun (fields, t) => (.object (Dictionary.ofPairs fields), t)
    | t => scalar? t

/-- The items of a list up to its closing bracket. -/
def items? : Nat → Text → Option (List Document × Text)
  | 0, _ => none
  | fuel + 1, t =>
    match value? fuel t with
    | none => none
    | some (d, t) =>
      match skipSpaces t with
      | ',' :: t => (items? fuel t).map fun (items, t) => (d :: items, t)
      | ']' :: t => some ([d], t)
      | _ => none

/-- The fields of an object up to its closing brace, in the order of writing. -/
def fields? : Nat → Text → Option (List (Text × Document) × Text)
  | 0, _ => none
  | fuel + 1, t =>
    match skipSpaces t with
    | '"' :: t =>
      match string? t with
      | none => none
      | some (key, t) =>
        match skipSpaces t with
        | ':' :: t =>
          match value? fuel t with
          | none => none
          | some (d, t) =>
            match skipSpaces t with
            | ',' :: t => (fields? fuel t).map fun (fields, t) => ((key, d) :: fields, t)
            | '}' :: t => some ([(key, d)], t)
            | _ => none
        | _ => none
    | _ => none

end

/-- The document that a text is, if it is one JSON value with nothing but spaces around it. -/
def read? (t : Text) : Option Document :=
  match value? (2 * t.length + 2) t with
  | some (d, rest) => if (skipSpaces rest).isEmpty then some d else none
  | none => none

/-! ### Writing -/

/-- A character as it is written in a string. -/
def escapeChar (c : Char) : Text :=
  match c with
  | '"' => ['\\', '"']
  | '\\' => ['\\', '\\']
  | '\x08' => ['\\', 'b']
  | '\x0c' => ['\\', 'f']
  | '\n' => ['\\', 'n']
  | '\r' => ['\\', 'r']
  | '\t' => ['\\', 't']
  | c =>
    if c < ' ' then
      ['\\', 'u', '0', '0', Text.hexDigit (c.toNat / 16), Text.hexDigit (c.toNat % 16)]
    else [c]

def quote (t : Text) : Text := '"' :: (t.flatMap escapeChar ++ ['"'])

/-- A number as it is written; what is not a finite number has no form of its own. -/
def writeNumber : Number → Text
  | .finite negative digits exponent => (Number.finite negative digits exponent).text
  | .infinite _ => "null"
  | .undefined => "null"

/-- The pieces of a list or an object between its brackets. With an indentation every piece stands
on a line of its own, one step further in than `margin`. -/
def enclose (opening closing : Char) (step margin : Text) (pieces : List Text) : Text :=
  if pieces.isEmpty then [opening, closing]
  else if step.isEmpty then opening :: (Text.join [','] pieces ++ [closing])
  else
    opening :: '\n' :: (margin ++ step ++
      Text.join (',' :: '\n' :: (margin ++ step)) pieces ++ '\n' :: (margin ++ [closing]))

mutual

/-- A document with its lines, after the first, indented by `margin` and parts of it by a further
`step`; on one line if the step is empty. -/
def writeAt (step margin : Text) : Document → Text
  | .null => "null"
  | .bool true => "true"
  | .bool false => "false"
  | .number n => writeNumber n
  | .text t => quote t
  | .list items => enclose '[' ']' step margin (writeItems step (margin ++ step) items)
  | .object fields => enclose '{' '}' step margin (writeFields step (margin ++ step) fields)

def writeItems (step margin : Text) : List Document → List Text
  | [] => []
  | d :: rest => writeAt step margin d :: writeItems step margin rest

def writeFields (step margin : Text) : List (Text × Document) → List Text
  | [] => []
  | (key, d) :: rest =>
    (quote key ++ (if step.isEmpty then [':'] else [':', ' ']) ++ writeAt step margin d) ::
      writeFields step margin rest

end

def write (d : Document) : Text := writeAt [] [] d

/-- A document with one part a line, indented by two spaces. -/
def writeIndented (d : Document) : Text := writeAt [' ', ' '] [] d

end GettextFill.Json
