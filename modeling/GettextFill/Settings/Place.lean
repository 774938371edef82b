import GettextFill.Settings.Written

/-!
# Places of values

The key of a value says with its parts where the value belongs: `a.b` is the field `b` of the object
`a`. A part that can be read as a number names a place in a list, whatever the form in which it is
written, unless there is an object already.

`Document.setAt?` puts a value in its place and makes the lists and objects on the way. Values that
are neither give way to them.
-/

namespace GettextFill

/-- Why a value cannot be put in its place, or an item not be added. -/
inductive PlaceFlaw
  /-- Something is added to a value that is no list. -/
  | notList
  /-- A value that has no one-line form is added to a text. -/
  | notText
  /-- The length of a list is given and is no natural number. -/
  | badLength
  /-- The length of a list is to have parts. -/
  | partsOfLength
  deriving DecidableEq

def PlaceFlaw.message : PlaceFlaw → Text
  | notList => "an item cannot be added to a value that is no list"
  | notText => "a value that has no one-line form cannot be added to a text"
  | badLength => "the length of a list must be a natural number"
  | partsOfLength => "the length of a list has no parts"

namespace Document

/-! ### Parts of keys -/

/-- A part of a key: the name of a field, or a number, which may be the place of an item. -/
inductive Part
  | name (t : Text)
  | number (n : Number)
  deriving DecidableEq

def Part.ofText (t : Text) : Part :=
  match Number.ofText? t with
  | some n => number n
  | none => name t

/-- The name of the field that a part stands for in an object. -/
def Part.field : Part → Text
  | name t => t
  | number n => n.text

/-- The place of the item that a part stands for in a list, if it does. -/
def Part.place? (p : Part) : Option Nat := Dictionary.index? p.field

/-! ### Lists -/

/-- A list with an item at a place; null stands in places that are left out. -/
def setItem (items : List Document) (place : Nat) (d : Document) : List Document :=
  (items ++ List.replicate (place + 1 - items.length) Document.null).set place d

/-- The length of a list that a value stands for: a natural number below 2³². -/
def length? (value : Written) : Option Nat :=
  ((count? value).bind Number.toInt?).bind fun n =>
    if 0 ≤ n && n < 4294967296 then some n.toNat else none

/-- A list of the given length; null stands in new places. -/
def resized (items : List Document) (length : Nat) : List Document :=
  items.take length ++ List.replicate (length - items.length) Document.null

/-! ### Values in their places -/

/-- The object or list that holds the part of a key: the one that is there, or a new one. -/
def container (d : Option Document) (p : Part) : Document :=
  match d, p with
  | some (.object fields), _ => .object fields
  | some (.list items), _ => .list items
  | _, .number _ => .list []
  | _, .name _ => .object []

/-- An object with a field; without it where there is no value. -/
def setField (fields : Dictionary Document) (key : Text) : Written → Dictionary Document
  | none => fields.erase key
  | some d => fields.put key d

/-- A document with a value in the place that the parts of a key lead to. A field that stands behind
its object is never set, and a list has no fields but its length. -/
def setAt? (value : Written) : List Part → Option Document → Except PlaceFlaw Written
  | [], _ => .ok value
  | p :: rest, d =>
    if p = .name "__proto__" then .ok (some (container d p))
    else
      match container d p with
      | .object fields =>
        (setAt? value rest (Dictionary.get? fields p.field)).map fun inner =>
          some (.object (setField fields p.field inner))
      | .list items =>
        match p.place? with
        | some place =>
          (setAt? value rest items[place]?).map fun inner =>
            some (.list (setItem items place (inner.getD .null)))
        | none =>
          if p = .name "length" then
            match rest with
            | [] =>
              match length? value with
              | some n => .ok (some (.list (resized items n)))
              | none => .error .badLength
            | .number _ :: _ => .error .partsOfLength
            | .name _ :: _ => .error .badLength
          else .ok (some (.list items))
      | d => .ok (some d)

end Document

end GettextFill
