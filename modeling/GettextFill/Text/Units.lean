import GettextFill.Text

/-!
# Code units

Documents and the lists of changed files count and compare texts by code units of 16 bits: a
character beyond the basic plane is two units, a high and a low surrogate. `Text.units` are the
units of a text, `Text.ofCodes` reads codes in which surrogates may be written one by one, and
`Text.unitsBefore` is the order of texts by their units.
-/

namespace GettextFill.Text

def charUnits (c : Char) : List Nat :=
  if c.toNat < 0x10000 then [c.toNat]
  else [0xd800 + (c.toNat - 0x10000) / 0x400, 0xdc00 + (c.toNat - 0x10000) % 0x400]

def units (t : Text) : List Nat := t.flatMap charUnits

def unitLength (t : Text) : Nat := t.units.length

def isHighSurrogate (n : Nat) : Bool := 0xd800 ≤ n && n < 0xdc00

def isLowSurrogate (n : Nat) : Bool := 0xdc00 ≤ n && n < 0xe000

/-- The character of a code. A surrogate that stands alone has none and is replaced. -/
def charOfCode (n : Nat) : Char :=
  if isHighSurrogate n || isLowSurrogate n then '\ufffd' else Char.ofNat n

/-- The character that a pair of surrogates stands for. -/
def charOfPair (high low : Nat) : Char :=
  Char.ofNat (0x10000 + (high - 0xd800) * 0x400 + (low - 0xdc00))

/-- The text of codes, each a character or one half of a pair. -/
def ofCodes : List Nat → Text
  | [] => []
  | [n] => [charOfCode n]
  | m :: n :: rest =>
    if isHighSurrogate m && isLowSurrogate n then charOfPair m n :: ofCodes rest
    else charOfCode m :: ofCodes (n :: rest)

/-- Whether one list of units comes before another, unit by unit. -/
def unitsLess : List Nat → List Nat → Bool
  | _, [] => false
  | [], _ :: _ => true
  | m :: s, n :: t => m < n || (m = n && unitsLess s t)

/-- Whether a text comes before another by units. -/
def unitsBefore (s t : Text) : Bool := unitsLess s.units t.units

end GettextFill.Text
