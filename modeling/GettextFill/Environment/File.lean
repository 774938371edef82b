import GettextFill.Dictionary

/-!
# Environment files

An environment file gives values to variables, one `NAME=value` after the other; `export` may stand
before a name and a colon with a space in the place of the equals sign. A value is a quoted text,
which may run over several lines, or whatever stands before a comment or the end of the line. Lines
of any other form are passed over.

`EnvironmentFile.read` gives the values in the order of the file.
-/

namespace GettextFill.EnvironmentFile

def isNameChar (c : Char) : Bool := Text.isWord c || c = '.' || c = '-'

def skipBlanks (t : Text) : Text := t.dropWhile Text.isBlank

def skipLine (t : Text) : Text := t.dropWhile fun c => !Text.isBreak c

/-- A name with the sign that gives it a value, and what follows the sign. -/
def plainName? (t : Text) : Option (Text × Text) :=
  let name := t.takeWhile isNameChar
  let rest := t.dropWhile isNameChar
  if name.isEmpty then none
  else
    match skipBlanks rest, rest with
    | '=' :: value, _ => some (name, value)
    | _, ':' :: c :: value => if Text.isBlank c then some (name, value) else none
    | _, _ => none

def name? (t : Text) : Option (Text × Text) :=
  let exported := match Text.after? "export" t with
    | some (c :: rest) => if Text.isBlank c then plainName? (skipBlanks rest) else none
    | _ => none
  match exported with
  | some found => some found
  | none => plainName? t

/-- What follows a value, if nothing but blanks and a comment stands before the end of a line. -/
def afterValue? (t : Text) : Option Text :=
  let rest := skipBlanks t
  if rest.isEmpty || rest.head? = some '#' then some (skipLine rest)
  else if (t.takeWhile Text.isBlank).any Text.isBreak then some rest
  else none

/-- The ways to end a quoted text, each with what follows the quote. The first quote without a
backslash before it is the best way, then the last of those with one. The text so far is given
with its last character first. -/
def closings (quote : Char) (before : Text) : Text → List (Text × Text)
  | [] => []
  | '\\' :: c :: t =>
    if c = quote then
      closings quote (c :: '\\' :: before) t ++ [(('\\' :: before).reverse, t)]
    else closings quote ('\\' :: before) (c :: t)
  | c :: t => if c = quote then [(before.reverse, t)] else closings quote (c :: before) t

def isQuote (c : Char) : Bool := c = '\'' || c = '"' || c = Char.ofNat 96

/-- A quoted text that ends where a value can end, with its quote and what follows the value. -/
def quoted? (t : Text) : Option (Char × Text × Text) :=
  match skipBlanks t with
  | quote :: body =>
    if isQuote quote then
      (closings quote [] body).findSome? fun (inner, rest) =>
        (afterValue? rest).map fun rest => (quote, inner, rest)
    else none
  | [] => none

/-- The line breaks that are written with a backslash. -/
def expand (t : Text) : Text :=
  Text.replaceAll "\\r" "\r" (Text.replaceAll "\\n" "\n" t)

/-- A value as it is meant, from what stands between its quotes. -/
def ofQuoted (quote : Char) (inner : Text) : Text := if quote = '"' then expand inner else inner

/-- The text between the quote before it and the last such quote that ends a line, and what follows
that quote. -/
def closed? (quote : Char) : Text → Option (Text × Text)
  | [] => none
  | c :: t =>
    match closed? quote t with
    | some (inner, rest) => some (c :: inner, rest)
    | none =>
      if c = quote && (t.head?.map Text.isBreak).getD true then some ([], t) else none

/-- A value without the quotes around its lines. A quoted part begins with a line and ends with one.
`atStart` says whether a line begins; at most `fuel` characters are left. -/
def unquoted : Nat → Bool → Text → Text
  | 0, _, t => t
  | _ + 1, _, [] => []
  | fuel + 1, atStart, c :: t =>
    match if atStart && isQuote c then closed? c t else none with
    | some (inner, rest) => inner ++ unquoted fuel false rest
    | none => c :: unquoted fuel (Text.isBreak c) t

/-- A value that was not read as quoted. It may still have quotes around it, or begin with one
alone. -/
def ofBare (t : Text) : Text :=
  match Text.trim t with
  | [] => []
  | c :: rest => ofQuoted c (unquoted (rest.length + 1) true (c :: rest))

/-- The value that a text begins with, and what follows it. -/
def value (t : Text) : Text × Text :=
  match quoted? t with
  | some (quote, inner, rest) => (ofQuoted quote inner, rest)
  | none =>
    let inLine (c : Char) : Bool := c ≠ '#' && c ≠ '\n'
    let rest := t.dropWhile inLine
    (ofBare (t.takeWhile inLine), (afterValue? rest).getD rest)

/-- The pairs of a text whose line breaks are line feeds. At most `fuel` lines are left. -/
def pairs : Nat → Text → List (Text × Text)
  | 0, _ => []
  | fuel + 1, t =>
    match skipBlanks t with
    | [] => []
    | c :: rest =>
      match name? (c :: rest) with
      | none => pairs fuel (skipLine (c :: rest))
      | some (name, after) =>
        let (v, after) := value after
        (name, v) :: pairs fuel after

def unifyBreaks (t : Text) : Text := Text.replaceAll "\r" "\n" (Text.replaceAll "\r\n" "\n" t)

def read (t : Text) : Dictionary Text :=
  Dictionary.ofPairs
    ((pairs (t.length + 1) (unifyBreaks t)).filter fun pair => pair.1 ≠ "__proto__".toList)

end GettextFill.EnvironmentFile
