import GettextFill.Text

/-!
# UTF-8

A file is a list of bytes; its text is written in UTF-8. `Utf8.encode` writes a text and
`Utf8.decode?` reads one and refuses bytes that no text is written as. `Utf8.decodeLossy` puts a
replacement character where a piece of the bytes cannot be read.

Both readers run the same machine, one byte at a time: `Utf8.step` says what a byte completes and
what is then waited for. A byte that does not continue a character ends it and is read anew.
-/

namespace GettextFill

/-- The content of a file. -/
abbrev Bytes := List UInt8

namespace Utf8

def encodeChar (c : Char) : Bytes :=
  let n := c.toNat
  let next (k : Nat) : UInt8 := .ofNat (0x80 + n / k % 64)
  if n < 0x80 then [.ofNat n]
  else if n < 0x800 then [.ofNat (0xc0 + n / 64), next 1]
  else if n < 0x10000 then [.ofNat (0xe0 + n / 4096), next 64, next 1]
  else [.ofNat (0xf0 + n / 262144), next 4096, next 64, next 1]

def encode (t : Text) : Bytes := t.flatMap encodeChar

/-- What is waited for. -/
inductive State
  /-- The first byte of a character. -/
  | start
  /-- A character of which `missing` bytes are still to come; the next has to lie in a range. -/
  | within (missing value least greatest : Nat)
  deriving DecidableEq

/-- Read the first byte of a character: what it completes, where none is a byte that begins no
character, and what comes next. -/
def first (b : Nat) : List (Option Char) × State :=
  if b < 0x80 then ([some (Char.ofNat b)], .start)
  else if b < 0xc2 then ([none], .start)
  else if b < 0xe0 then ([], .within 1 (b - 0xc0) 0x80 0xbf)
  else if b = 0xe0 then ([], .within 2 0 0xa0 0xbf)
  else if b = 0xed then ([], .within 2 0xd 0x80 0x9f)
  else if b < 0xf0 then ([], .within 2 (b - 0xe0) 0x80 0xbf)
  else if b = 0xf0 then ([], .within 3 0 0x90 0xbf)
  else if b < 0xf4 then ([], .within 3 (b - 0xf0) 0x80 0xbf)
  else if b = 0xf4 then ([], .within 3 4 0x80 0x8f)
  else ([none], .start)

def step : State → Nat → List (Option Char) × State
  | .start, b => first b
  | .within missing value least greatest, b =>
    if least ≤ b && b ≤ greatest then
      let value := value * 64 + (b - 0x80)
      if missing = 1 then ([some (Char.ofNat value)], .start)
      else ([], .within (missing - 1) value 0x80 0xbf)
    else (none :: (first b).1, (first b).2)

/-- Read bytes from a state: the characters in order, none where there is no character. -/
def run : State → Bytes → List (Option Char)
  | .start, [] => []
  | .within _ _ _ _, [] => [none]
  | state, b :: rest => (step state b.toNat).1 ++ run (step state b.toNat).2 rest

/-- The characters, if all of them could be read. -/
def all? : List (Option Char) → Option Text
  | [] => some []
  | some c :: rest => (all? rest).map (c :: ·)
  | none :: _ => none

def decode? (bytes : Bytes) : Option Text := all? (run .start bytes)

/-- The text that bytes are, with a replacement character for what cannot be read. -/
def decodeLossy (bytes : Bytes) : Text := (run .start bytes).map fun c => c.getD '\ufffd'

end Utf8

end GettextFill
