/-!
# Text

A text is the list of its characters, so that a reader of text is a recursion on a list and every
law about it is an induction. No character is half of a surrogate pair, so every text can be written
as UTF-8. String literals may stand where a text is expected; they mean the list of their characters.

`Text.after? p t` is what follows the beginning `p` of `t`, `Text.lines` cuts a text at its line
feeds, `Text.trim` drops the blanks on both sides. `Text.after?_eq_some_iff` says that `after?`
takes exactly the beginning away, and `Text.dropReturn_append_return` that a line loses exactly the
carriage return that belongs to its terminator.
-/

namespace GettextFill

/-- A text is the list of its characters. -/
abbrev Text := List Char

/-- A string literal stands for the list of its characters. -/
instance : Coe String Text := ⟨String.toList⟩

namespace Text

/-! ### Classes of characters -/

/-- The characters that separate words and are dropped by trimming: the controls from tabulator to
carriage return, the spaces of all widths, both separators and the byte order mark. -/
def isBlank (c : Char) : Bool :=
  ('\t' ≤ c && c ≤ '\r') || c = ' ' || c = '\u00a0' || c = '\u1680' ||
    ('\u2000' ≤ c && c ≤ '\u200a') || c = '\u2028' || c = '\u2029' || c = '\u202f' ||
    c = '\u205f' || c = '\u3000' || c = '\ufeff'

/-- The characters that end a line of text and so never stand inside one. -/
def isBreak (c : Char) : Bool :=
  c = '\n' || c = '\r' || c = '\u2028' || c = '\u2029'

def isDigit (c : Char) : Bool := '0' ≤ c && c ≤ '9'

def isLower (c : Char) : Bool := 'a' ≤ c && c ≤ 'z'

def isUpper (c : Char) : Bool := 'A' ≤ c && c ≤ 'Z'

/-- The unaccented letters and the decimal digits. -/
def isAlphanumeric (c : Char) : Bool := isLower c || isUpper c || isDigit c

/-- The characters of a word: unaccented letters, digits and the low line. -/
def isWord (c : Char) : Bool := isAlphanumeric c || c = '_'

/-- The byte order mark, which may stand before a text and is no part of it. -/
def byteOrderMark : Char := '\ufeff'

/-! ### Beginnings and ends -/

/-- What follows `p` in a text that begins with `p`. -/
def after? : Text → Text → Option Text
  | [], t => some t
  | _ :: _, [] => none
  | p :: ps, c :: t => if p = c then after? ps t else none

@[simp] theorem after?_append (p t : Text) : after? p (p ++ t) = some t := by
  induction p with
  | nil => rfl
  | cons c p ih => simpa [after?] using ih

theorem after?_eq_some_iff {p t r : Text} : after? p t = some r ↔ t = p ++ r := by
  constructor
  · intro h
    induction p generalizing t with
    | nil => simpa [after?] using h
    | cons c p ih =>
        cases t with
        | nil => simp [after?] at h
        | cons d t =>
            simp only [after?] at h
            split at h
            · next hc => rw [hc, ih h, List.cons_append]
            · simp at h
  · rintro rfl
    exact after?_append p r

def startsWith (p t : Text) : Bool := (after? p t).isSome

def endsWith (p t : Text) : Bool := startsWith p.reverse t.reverse

/-- Whether a text stands somewhere in another. -/
def occursIn (part : Text) : Text → Bool
  | [] => part.isEmpty
  | c :: t => startsWith part (c :: t) || occursIn part t

def trimEnd (t : Text) : Text := (t.reverse.dropWhile isBlank).reverse

/-- A text without the blanks on either side. -/
def trim (t : Text) : Text := trimEnd (t.dropWhile isBlank)

/-- A text without one byte order mark before it. -/
def dropMark : Text → Text
  | [] => []
  | c :: t => if c = byteOrderMark then t else c :: t

/-! ### Lines -/

/-- A line without the carriage return that belongs to its terminator. -/
def dropReturn (line : Text) : Text :=
  if line.getLast? = some '\r' then line.dropLast else line

@[simp] theorem dropReturn_append_return (line : Text) : dropReturn (line ++ ['\r']) = line := by
  simp [dropReturn]

theorem dropReturn_of_getLast?_ne {line : Text} (h : line.getLast? ≠ some '\r') :
    dropReturn line = line := by
  simp [dropReturn, h]

/-- Drop the carriage return of every terminated line, that is of every line but the last. -/
def dropReturns : List Text → List Text
  | [] => []
  | [last] => [last]
  | line :: next :: rest => dropReturn line :: dropReturns (next :: rest)

/-- The lines of a text: the pieces between its terminators, which are the line feeds, each with
the carriage return directly before it if there is one. -/
def lines (t : Text) : List Text := dropReturns (t.splitOn '\n')

/-- Pieces one after the other with a separator between them. -/
def join (separator : Text) (pieces : List Text) : Text := separator.intercalate pieces

/-! ### Numbers -/

def ofNat (n : Nat) : Text := Nat.toDigits 10 n

/-- The number that a run of decimal digits stands for. -/
def digitsValue (t : Text) : Nat := t.foldl (fun n c => 10 * n + (c.toNat - '0'.toNat)) 0

def hexValue? (c : Char) : Option Nat :=
  if isDigit c then some (c.toNat - '0'.toNat)
  else if 'a' ≤ c && c ≤ 'f' then some (c.toNat - 'a'.toNat + 10)
  else if 'A' ≤ c && c ≤ 'F' then some (c.toNat - 'A'.toNat + 10)
  else none

/-- The digit in base sixteen of a number below sixteen. -/
def hexDigit (n : Nat) : Char :=
  if n < 10 then Char.ofNat ('0'.toNat + n) else Char.ofNat ('a'.toNat + (n - 10))

/-! ### Replacement -/

/-- Every occurrence of the nonempty text `old` replaced, from left to right. -/
def replaceAll (old new : Text) (t : Text) : Text := go t.length t
where
  /-- At most `fuel` characters are left to look at. -/
  go : Nat → Text → Text
    | 0, t => t
    | _ + 1, [] => []
    | fuel + 1, c :: t =>
      match after? old (c :: t) with
      | some r => new ++ go fuel r
      | none => c :: go fuel t

def toLower (t : Text) : Text :=
  t.map fun c => if isUpper c then Char.ofNat (c.toNat + 32) else c

def toUpper (t : Text) : Text :=
  t.map fun c => if isLower c then Char.ofNat (c.toNat - 32) else c

end Text

end GettextFill
