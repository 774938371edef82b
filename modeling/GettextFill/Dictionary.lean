import GettextFill.Text

/-!
# Dictionaries

A dictionary is a list of keys with their values that keeps the order of its keys. There are two
ways to add a key. `Dictionary.insert` puts a new key at the end, the order of first appearance.
`Dictionary.put` is the order of documents: keys that are array indices come first, in increasing
order, and all others follow in order of first appearance. Both leave the place of a key that is
already there and change its value.
-/

namespace GettextFill

/-- Keys with their values, in an order that is part of the dictionary. -/
abbrev Dictionary (α : Type) := List (Text × α)

namespace Dictionary

variable {α β : Type}

/-- The value of a key: that of its first appearance. -/
def get? : Dictionary α → Text → Option α
  | [], _ => none
  | (k, v) :: d, key => if k = key then some v else get? d key

def contains (d : Dictionary α) (key : Text) : Bool := (d.get? key).isSome

def keys (d : Dictionary α) : List Text := d.map Prod.fst

def values (d : Dictionary α) : List α := d.map Prod.snd

/-- Give a key a value: in its place if it is there, else at the end. -/
def insert : Dictionary α → Text → α → Dictionary α
  | [], key, value => [(key, value)]
  | (k, v) :: d, key, value =>
    if k = key then (key, value) :: d else (k, v) :: insert d key value

/-- The names that every object answers, whether or not it has such a field. -/
def reservedNames : List Text :=
  ["constructor", "__defineGetter__", "__defineSetter__", "hasOwnProperty", "__lookupGetter__",
    "__lookupSetter__", "isPrototypeOf", "propertyIsEnumerable", "toString", "valueOf", "__proto__",
    "toLocaleString"]

def isReserved (name : Text) : Bool := reservedNames.any fun n => n = name

/-- The array index that a key is: a number below 2³² − 1 written without leading zeros. -/
def index? (key : Text) : Option Nat :=
  let n := Text.digitsValue key
  if !key.isEmpty && key.all Text.isDigit && (key.head? ≠ some '0' || key = ['0']) &&
      n < 4294967295 then some n else none

/-- Whether `key`, not yet there, comes before `other` in a document. -/
def precedes (key other : Text) : Bool :=
  match index? key, index? other with
  | some m, some n => m < n
  | some _, none => true
  | none, _ => false

/-- Add a key that is not there in the place that the order of documents gives it. -/
def place (key : Text) (value : α) : Dictionary α → Dictionary α
  | [] => [(key, value)]
  | (k, v) :: d =>
    if precedes key k then (key, value) :: (k, v) :: d else (k, v) :: place key value d

/-- Give a key a value in the order of documents. -/
def put (d : Dictionary α) (key : Text) (value : α) : Dictionary α :=
  if d.contains key then d.insert key value else d.place key value

/-- A dictionary in the order of documents, from keys and values in the order of writing. -/
def ofPairs (pairs : List (Text × α)) : Dictionary α :=
  pairs.foldl (fun d pair => d.put pair.1 pair.2) []

/-- A dictionary with other values under the same keys. -/
def mapValues (f : α → β) (d : Dictionary α) : Dictionary β := d.map fun pair => (pair.1, f pair.2)

def erase (d : Dictionary α) (key : Text) : Dictionary α := d.filter fun pair => pair.1 ≠ key

@[simp] theorem get?_nil (key : Text) : get? ([] : Dictionary α) key = none := rfl

theorem get?_cons (k : Text) (v : α) (d : Dictionary α) (key : Text) :
    get? ((k, v) :: d) key = if k = key then some v else get? d key := rfl

/-- The value of a key after the values have changed. -/
theorem get?_mapValues (f : α → β) (d : Dictionary α) (key : Text) :
    (d.mapValues f).get? key = (d.get? key).map f := by
  induction d with
  | nil => rfl
  | cons p d ih =>
      obtain ⟨k, v⟩ := p
      change (if k = key then some (f v) else get? (mapValues f d) key) = _
      rw [ih, get?_cons]
      split <;> rfl

/-- After an insertion the key has the new value and every other key the one it had. -/
theorem get?_insert (d : Dictionary α) (key other : Text) (value : α) :
    (d.insert key value).get? other = if key = other then some value else d.get? other := by
  induction d with
  | nil => simp [insert, get?]
  | cons p d ih =>
      obtain ⟨k, v⟩ := p
      by_cases hk : k = key
      · subst hk
        simp only [insert, if_true, get?_cons]
        split <;> rfl
      · simp only [insert, hk, if_false, get?_cons, ih]
        by_cases ho : key = other
        · subst ho; simp [hk]
        · simp [ho]

end Dictionary

end GettextFill
