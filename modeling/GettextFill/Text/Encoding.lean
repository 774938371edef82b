import GettextFill.Text.Units
import GettextFill.Text.Utf8

/-!
# Encodings

Files are written in UTF-8 unless another encoding is asked for by name. `Encoding.ofName?` knows
the names, in any case; `Encoding.read?` and `Encoding.write` go between bytes and text. An encoding
that has fewer characters than a text keeps the low part of each unit. Base 16 and base 64 turn
bytes themselves into text, and back again only the low part of each unit.
-/

namespace GettextFill

/-- The ways to read bytes as text. -/
inductive Encoding
  | utf8
  | utf16
  | latin1
  | ascii
  | base16
  | base64
  | base64url
  deriving DecidableEq

namespace Encoding

def ofName? (name : Text) : Option Encoding :=
  let name := Text.toLower name
  if name = "utf8" || name = "utf-8" then some utf8
  else if name = "ucs2" || name = "ucs-2" || name = "utf16le" || name = "utf-16le" then some utf16
  else if name = "latin1" || name = "binary" then some latin1
  else if name = "ascii" then some ascii
  else if name = "hex" then some base16
  else if name = "base64" then some base64
  else if name = "base64url" then some base64url
  else none

/-- The digit of base 64 with the given value. -/
def digit64 (url : Bool) (n : Nat) : Char :=
  if n < 26 then Char.ofNat ('A'.toNat + n)
  else if n < 52 then Char.ofNat ('a'.toNat + (n - 26))
  else if n < 62 then Char.ofNat ('0'.toNat + (n - 52))
  else if n = 62 then (if url then '-' else '+')
  else (if url then '_' else '/')

/-- The value of a digit of base 64, of either alphabet. -/
def value64? (c : Char) : Option Nat :=
  if Text.isUpper c then some (c.toNat - 'A'.toNat)
  else if Text.isLower c then some (c.toNat - 'a'.toNat + 26)
  else if Text.isDigit c then some (c.toNat - '0'.toNat + 52)
  else if c = '+' || c = '-' then some 62
  else if c = '/' || c = '_' then some 63
  else none

/-- Bytes in base 64, three at a time. The usual alphabet fills the last group up. -/
def toBase64 (url : Bool) : Bytes → Text
  | [] => []
  | [a] =>
    let n := a.toNat * 16
    [digit64 url (n / 64), digit64 url (n % 64)] ++ if url then [] else ['=', '=']
  | [a, b] =>
    let n := (a.toNat * 256 + b.toNat) * 4
    [digit64 url (n / 4096), digit64 url (n / 64 % 64), digit64 url (n % 64)] ++
      if url then [] else ['=']
  | a :: b :: c :: rest =>
    let n := (a.toNat * 256 + b.toNat) * 256 + c.toNat
    digit64 url (n / 262144) :: digit64 url (n / 4096 % 64) :: digit64 url (n / 64 % 64) ::
      digit64 url (n % 64) :: toBase64 url rest

/-- The bytes of digits of base 64, four at a time. -/
def ofDigits64 : List Nat → Bytes
  | a :: b :: c :: d :: rest =>
    .ofNat (a * 4 + b / 16) :: .ofNat (b % 16 * 16 + c / 4) :: .ofNat (c % 4 * 64 + d) ::
      ofDigits64 rest
  | [a, b, c] => [.ofNat (a * 4 + b / 16), .ofNat (b % 16 * 16 + c / 4)]
  | [a, b] => [.ofNat (a * 4 + b / 16)]
  | _ => []

/-- The bytes of pairs of digits of base 16, up to the first that is none. -/
def ofBase16 : Text → Bytes
  | a :: b :: rest =>
    match Text.hexValue? a, Text.hexValue? b with
    | some a, some b => .ofNat (a * 16 + b) :: ofBase16 rest
    | _, _ => []
  | _ => []

def lowByte (n : Nat) : UInt8 := .ofNat (n % 256)

/-- The digits that a text is taken for: the characters of the low bytes of its units. -/
def lowChars (t : Text) : Text := t.units.map fun n => Char.ofNat (n % 256)

/-- The bytes of digits of base 64 up to the first equals sign; what is no digit is passed over. -/
def ofBase64 (t : Text) : Bytes := ofDigits64 ((t.takeWhile fun c => c ≠ '=').filterMap value64?)

/-- Units from bytes, the low byte first. A single byte at the end is left out. -/
def pairs : Bytes → List Nat
  | a :: b :: rest => (b.toNat * 256 + a.toNat) :: pairs rest
  | _ => []

def read (e : Encoding) (bytes : Bytes) : Text :=
  match e with
  | utf8 => Utf8.decodeLossy bytes
  | utf16 => Text.ofCodes (pairs bytes)
  | latin1 => bytes.map fun b => Char.ofNat b.toNat
  | ascii => bytes.map fun b => Char.ofNat (b.toNat % 128)
  | base16 => bytes.flatMap fun b => [Text.hexDigit (b.toNat / 16), Text.hexDigit (b.toNat % 16)]
  | base64 => toBase64 false bytes
  | base64url => toBase64 true bytes

def write (e : Encoding) (t : Text) : Bytes :=
  match e with
  | utf8 => Utf8.encode t
  | utf16 => t.units.flatMap fun n => [.ofNat (n % 256), .ofNat (n / 256)]
  | latin1 => t.units.map lowByte
  | ascii => t.units.map lowByte
  | base16 => ofBase16 (lowChars t)
  | base64 => ofBase64 (lowChars t)
  | base64url => ofBase64 (lowChars t)

end Encoding

end GettextFill
