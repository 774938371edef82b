import GettextFill.Catalog.Escape

/-!
# Fields

A field is a keyword line such as `msgid "…"` and the bare quoted lines that continue it; together
they hold one text. `Keyword.ofLine?` reads the keyword that a line begins with, `quoted?` the text
between the quotes of a line, and `Field.decode` the text of the field at the head of a list of
lines. `Field.encode` writes a text as a field of one line.

A line that has neither of the two shapes holds no text and is passed over by `Field.decode`.
-/

namespace GettextFill

/-- The keywords of a field. The plural forms of a target are numbered, and the digits of the number
are kept as they are written. -/
inductive Keyword
  | context
  | source
  | sourcePlural
  | target
  | targetForm (digits : Text)
  deriving DecidableEq

namespace Keyword

def text : Keyword → Text
  | context => "msgctxt"
  | source => "msgid"
  | sourcePlural => "msgid_plural"
  | target => "msgstr"
  | targetForm digits => ("msgstr[" : Text) ++ digits ++ [']']

/-- The number in brackets after `msgstr` and what follows it. -/
def form? : Text → Option (Text × Text)
  | '[' :: t =>
    match t.takeWhile Text.isDigit, t.dropWhile Text.isDigit with
    | d :: digits, ']' :: rest => some (d :: digits, rest)
    | _, _ => none
  | _ => none

/-- The keyword that a text begins with and what follows it. The longer keyword wins where one
begins with another. -/
def read? (t : Text) : Option (Keyword × Text) :=
  match Text.after? "msgctxt" t with
  | some rest => some (context, rest)
  | none =>
    match Text.after? "msgid_plural" t with
    | some rest => some (sourcePlural, rest)
    | none =>
      match Text.after? "msgid" t with
      | some rest => some (source, rest)
      | none =>
        match Text.after? "msgstr" t with
        | some rest =>
          match form? rest with
          | some (digits, rest) => some (targetForm digits, rest)
          | none => some (target, rest)
        | none => none

/-- The keyword of a line and what follows it, if a blank separates the two. -/
def split? (line : Text) : Option (Keyword × Text) :=
  match read? line with
  | some (keyword, c :: rest) => if Text.isBlank c then some (keyword, c :: rest) else none
  | _ => none

/-- The keyword of a field line, if it is one. -/
def ofLine? (line : Text) : Option Keyword := (split? line).map Prod.fst

/-- Whether the keyword belongs to a numbered plural form. -/
def isForm : Keyword → Bool
  | targetForm _ => true
  | _ => false

end Keyword

/-- What stands between the quotes of a text that begins after an opening quote: everything up to
the last quote, provided that only blanks follow it and that no line ends before it. -/
def quoted? (t : Text) : Option Text :=
  match t.reverse.dropWhile Text.isBlank with
  | '"' :: inner => if inner.any Text.isBreak then none else some inner.reverse
  | _ => none

/-- The quoted text of a keyword line, still escaped. -/
def keywordLine? (line : Text) : Option Text :=
  match Keyword.split? line with
  | some (_, rest) =>
    match rest.dropWhile Text.isBlank with
    | '"' :: t => quoted? t
    | _ => none
  | none => none

/-- The quoted text of a line without a keyword, still escaped. -/
def continuationLine? : Text → Option Text
  | '"' :: t => quoted? t
  | _ => none

namespace Field

/-- The text on the lines that continue a field, up to the next keyword line. -/
def decodeContinuation : List Text → Text
  | [] => []
  | line :: rest =>
    if (Keyword.ofLine? line).isSome then []
    else ((continuationLine? line).map unescape).getD [] ++ decodeContinuation rest

/-- The text of the field at the head of `lines`. It ends before the next keyword line, so a plural
source is not read as part of the source before it. -/
def decode : List Text → Text
  | [] => []
  | line :: rest => ((keywordLine? line).map unescape).getD [] ++ decodeContinuation rest

/-- A field line: the keyword, a space and the text in quotes. -/
def line (keyword value : Text) : Text := keyword ++ ' ' :: '"' :: (escape value ++ ['"'])

/-- A text as a field. It is never wrapped, so the field is a single line. -/
def encode (keyword value : Text) : List Text := [line keyword value]

@[simp] theorem decodeContinuation_nil : decodeContinuation [] = [] := rfl

end Field

end GettextFill
