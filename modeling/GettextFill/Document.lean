import GettextFill.Dictionary
import GettextFill.Number

/-!
# Documents

A document is data that is not yet known to have any particular shape: what a table file, a settings
file or the details of a fault hold before they are checked. An object keeps its fields in the order
of documents (`Dictionary.put`).

`Document.plain` is the one-line form in which a value is quoted in messages; it shows the items of
a list and nothing of an object. `Document.quoted?` gives it where there is one: an object that has
a field of its own under the name by which objects are written, `toString`, has none.
-/

namespace GettextFill

/-- Data of any shape. -/
inductive Document
  | null
  | bool (value : Bool)
  | number (value : Number)
  | text (value : Text)
  | list (items : List Document)
  | object (fields : List (Text × Document))
  deriving Inhabited

namespace Document

/-- The value of a field. Only an object has fields. -/
def get? : Document → Text → Option Document
  | object fields, key => Dictionary.get? fields key
  | _, _ => none

/-- The fields of an object; other documents have none. -/
def fields : Document → Dictionary Document
  | object fields => fields
  | _ => []

/-- The text that a document is, if it is one. -/
def text? : Document → Option Text
  | text t => some t
  | _ => none

def ofNat (n : Nat) : Document := number (Number.ofNat n)

/-- Whether a document counts as true: all do but null, false, zero, what is not a number and the
empty text. -/
def truthy : Document → Bool
  | null => false
  | bool b => b
  | number n => n.truthy
  | text t => !t.isEmpty
  | list _ => true
  | object _ => true

/-- Whether an optional document is there and counts as true. -/
def isSet (d : Option Document) : Bool := (d.map truthy).getD false

def indexed (items : List Document) (start : Nat) : Dictionary Document :=
  match items with
  | [] => []
  | d :: rest => (Text.ofNat start, d) :: indexed rest (start + 1)

/-- The parts of a document under their keys: fields of an object, items of a list and characters of
a text under their places. Null has no parts to ask for. -/
def parts? : Document → Option (Dictionary Document)
  | null => none
  | bool _ => some []
  | number _ => some []
  | text t => some (indexed (t.map fun c => text [c]) 0)
  | list items => some (indexed items 0)
  | object fields => some fields

mutual

/-- A document on one line, as messages quote it. -/
def plain : Document → Text
  | null => "null"
  | bool true => "true"
  | bool false => "false"
  | number n => n.text
  | text t => t
  | list items => Text.join [','] (plainItems items)
  | object _ => "[object Object]"

/-- The items of a list as a message quotes them; null leaves nothing. -/
def plainItems : List Document → List Text
  | [] => []
  | null :: rest => [] :: plainItems rest
  | d :: rest => d.plain :: plainItems rest

end

@[simp] theorem plain_text (t : Text) : (text t).plain = t := rfl

mutual

def isQuotable : Document → Bool
  | list items => areQuotable items
  | object fields => !Dictionary.contains fields "toString"
  | _ => true

/-- Whether all items of a list have a one-line form. -/
def areQuotable : List Document → Bool
  | [] => true
  | d :: rest => d.isQuotable && areQuotable rest

end

/-- The one-line form of a document that has one. -/
def quoted? (d : Document) : Option Text := if d.isQuotable then some d.plain else none

/-- The number that a value counts as, if it is there and counts as one: null and false are zero,
true is one, a text or a list is the number that it is written as. -/
def count? : Option Document → Option Number
  | none => none
  | some .null => some (Number.ofNat 0)
  | some (.bool b) => some (Number.ofNat b.toNat)
  | some (.number n) => some n
  | some (.text t) => Number.ofText? t
  | some (.list items) => Number.ofText? (list items).plain
  | some (.object _) => none

end Document

end GettextFill
