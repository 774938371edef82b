import GettextFill.Document.Json

/-!
# Written values

A value on a line of settings is a document where it looks like one, one of a few words that stand
for a value of their own, or the text as it stands. One of the words says that there is no value.

Fields that could change what every object answers are not taken over from a written document.
`Written.cleared` leaves them out and tells which they were.
-/

namespace GettextFill

/-- The value of a line; none where the line says that there is none. -/
abbrev Written := Option Document

namespace Written

/-! ### Looks -/

/-- A text from the end of its digits, if they are between one and `most`. -/
def afterDigits? (most : Nat) (t : Text) : Option Text :=
  let digits := t.takeWhile Text.isDigit
  if digits.isEmpty || most < digits.length then none else some (t.dropWhile Text.isDigit)

/-- A text from the end of its fraction, if it begins with one. -/
def afterFraction? : Text → Option Text
  | '.' :: t => afterDigits? 17 t
  | t => some t

/-- A text from the end of its exponent, if it begins with one. -/
def afterExponent? : Text → Option Text
  | [] => some []
  | c :: t =>
    if c = 'e' || c = 'E' then
      let digits := match t with
        | '+' :: t => t
        | '-' :: t => t
        | t => t
      if digits.head?.any Text.isDigit then some (digits.dropWhile Text.isDigit) else none
    else some (c :: t)

/-- Whether a text without blanks around it looks like a number that is not too long. -/
def looksNumeric (t : Text) : Bool :=
  let t := match t with
    | '-' :: t => t
    | t => t
  (((afterDigits? 16 t).bind afterFraction?).bind afterExponent?) = some []

/-- Whether a text without blanks around it may be a document. -/
def looksLikeDocument : Text → Bool
  | '"' :: _ => true
  | '[' :: _ => true
  | '\x7b' :: _ => true
  | t => looksNumeric t

/-- The words that stand for a value of their own, in any case. -/
def word? (t : Text) : Option Written :=
  let t := Text.toLower t
  if t = "true" then some (some (.bool true))
  else if t = "false" then some (some (.bool false))
  else if t = "undefined" then some none
  else if t = "null" then some (some .null)
  else if t = "nan" then some (some (.number .undefined))
  else if t = "infinity" then some (some (.number (.infinite false)))
  else if t = "-infinity" then some (some (.number (.infinite true)))
  else none

def plainQuoted? : Text → Option Text
  | '"' :: t =>
    if t.contains '\\' then none
    else if t.isEmpty then some []
    else if t.getLast? = some '"' then some t.dropLast
    else none
  | _ => none

/-! ### Fields that are left out -/

/-- Whether a field is left out, because all objects could be changed through it. -/
def isHarmful (key : Text) (d : Document) : Bool :=
  key = "__proto__" || (key = "constructor" && d.fields.contains "prototype")

mutual

/-- A document without the fields that are left out, and the names of these from the inside out. -/
def cleared : Document → Document × List Text
  | .list items =>
    let (items, dropped) := clearedItems items
    (.list items, dropped)
  | .object fields =>
    let (fields, dropped) := clearedFields fields
    (.object fields, dropped)
  | d => (d, [])

/-- Items of a list without the fields that are left out. -/
def clearedItems : List Document → List Document × List Text
  | [] => ([], [])
  | d :: rest =>
    let (d, dropped) := cleared d
    let (rest, more) := clearedItems rest
    (d :: rest, dropped ++ more)

def clearedFields : List (Text × Document) → List (Text × Document) × List Text
  | [] => ([], [])
  | (key, d) :: rest =>
    let (d, dropped) := cleared d
    let (rest, more) := clearedFields rest
    if isHarmful key d then (rest, dropped ++ key :: more) else ((key, d) :: rest, dropped ++ more)

end

/-- The value that a text without blanks around it stands for, and the names of the fields that were
left out of it. -/
def ofText (t : Text) : Written × List Text :=
  match plainQuoted? t, word? t with
  | some inner, _ => (some (.text inner), [])
  | none, some d => (d, [])
  | none, none =>
    match if looksLikeDocument t then Json.read? t else none with
    | some d =>
      let (d, dropped) := cleared d
      (some d, dropped)
    | none => (some (.text t), [])

/-- A value as it goes on in a text; none if it has no one-line form. -/
def quoted? : Written → Option Text
  | none => some "undefined"
  | some d => d.quoted?

/-- A value as the items that it adds to a list. -/
def items : Written → List Document
  | none => [.null]
  | some (.list items) => items
  | some d => [d]

end Written

end GettextFill
