import GettextFill.Text

/-!
# Numbers

The numbers of a document are binary floating-point numbers of 64 bits. A number is held by its
shortest decimal: of all decimals that round to it, the one with the fewest digits, and of those the
nearest. So two numbers are the same when their decimals are, and writing one needs no arithmetic.

`Binary.nearest` rounds a quotient to such a number, a tie to the even neighbour;
`Binary.shortest?` looks for the decimal on finer and finer grids; `Number.text` writes it, in
positional form from 10⁻⁶ up to 10²¹ and with an exponent outside.
-/

namespace GettextFill

/-- A number of a document. A finite one is `digits · 10 ^ exponent` with its sign, without a zero
at the end of its digits. -/
inductive Number
  | finite (negative : Bool) (digits : Nat) (exponent : Int)
  | infinite (negative : Bool)
  /-- Not a number. -/
  | undefined
  deriving DecidableEq, Inhabited

/-- A positive binary number `mantissa · 2 ^ exponent`. The mantissa has 53 bits, or fewer at the
least exponent, which is −1074. -/
structure Binary where
  mantissa : Nat
  exponent : Int
  deriving DecidableEq

namespace Binary

def leastExponent : Int := -1074

def greatestExponent : Int := 971

/-- The quotient of two natural numbers rounded to the nearest, a tie to the even one. -/
def roundQuotient (n d : Nat) : Nat :=
  let q := n / d
  let r := n % d
  if 2 * r < d then q else if d < 2 * r then q + 1 else if q % 2 = 0 then q else q + 1

/-- The quotient `n / d` in units of `2 ^ e`, as numerator and denominator. -/
def inUnits (n d : Nat) (e : Int) : Nat × Nat :=
  (n * Nat.pow 2 (-e).toNat, d * Nat.pow 2 e.toNat)

/-- The binary number nearest to `n / d`, both positive; none if it is too great. -/
def nearest (n d : Nat) : Option Binary :=
  let e := (Nat.log2 n : Int) - Nat.log2 d - 53
  let (a, b) := inUnits n d e
  let e := max (if a / b < Nat.pow 2 53 then e else e + 1) leastExponent
  let (a, b) := inUnits n d e
  let m := roundQuotient a b
  let (m, e) := if m = Nat.pow 2 53 then (Nat.pow 2 52, e + 1) else (m, e)
  if greatestExponent < e then none else some { mantissa := m, exponent := e }

def decimalLength (n : Nat) : Nat := (Nat.toDigits 10 n).length

/-- How many tenfold steps bring `n / d` below one up to one; at most `fuel` are tried. -/
def stepsToOne (n d : Nat) : Nat → Nat
  | 0 => 0
  | fuel + 1 => if d ≤ n then 0 else stepsToOne (10 * n) d fuel + 1

/-- The exponent `p` with `10 ^ (p - 1) ≤ n / d < 10 ^ p`. -/
def decimalExponent (n d : Nat) : Int :=
  if d ≤ n then decimalLength (n / d) else 1 - (stepsToOne n d 400 : Int)

/-- The decimal with `k` digits that rounds to `b`, if there is one; of two, the nearest. -/
def onGrid? (b : Binary) (k : Nat) : Option (Nat × Int) :=
  let narrow := b.mantissa = Nat.pow 2 52 && leastExponent < b.exponent
  let middle := 4 * b.mantissa
  let low := if narrow then middle - 1 else middle - 2
  let high := middle + 2
  let twos := Nat.pow 2 (b.exponent - 2).toNat
  let halves := Nat.pow 2 (2 - b.exponent).toNat
  let p := decimalExponent (middle * twos) halves
  let up := Nat.pow 10 (p - k).toNat * halves
  let down := Nat.pow 10 (k - p).toNat * twos
  let n := middle * down / up
  let inside (n : Nat) : Bool :=
    if b.mantissa % 2 = 0 then low * down ≤ n * up && n * up ≤ high * down
    else low * down < n * up && n * up < high * down
  let below := middle * down - n * up
  let above := (n + 1) * up - middle * down
  let preferLower := below < above || (below = above && n % 2 = 0)
  if inside n && (preferLower || !inside (n + 1)) then some (n, p - k)
  else if inside (n + 1) then some (n + 1, p - k)
  else none

/-- The first grid from `k` digits on with a decimal that rounds to `b`; `fuel` grids are tried. -/
def shortest? (b : Binary) (k : Nat) : Nat → Option (Nat × Int)
  | 0 => none
  | fuel + 1 =>
    match onGrid? b k with
    | some found => some found
    | none => shortest? b (k + 1) fuel

end Binary

namespace Number

/-- Digits without zeros at their end; at most `fuel` zeros are taken off. -/
def dropZeros (digits : Nat) (exponent : Int) : Nat → Nat × Int
  | 0 => (digits, exponent)
  | fuel + 1 =>
    if digits ≠ 0 && digits % 10 = 0 then dropZeros (digits / 10) (exponent + 1) fuel
    else (digits, exponent)

def ofBinary (negative : Bool) (b : Binary) : Number :=
  if b.mantissa = 0 then finite negative 0 0
  else
    match b.shortest? 1 17 with
    | some (d, e) =>
      let (d, e) := dropZeros d e 400
      finite negative d e
    | none => undefined

/-- The number nearest to the quotient of two natural numbers, the second positive. -/
def ofQuotient (negative : Bool) (n d : Nat) : Number :=
  if n = 0 then finite negative 0 0
  else
    match Binary.nearest n d with
    | none => infinite negative
    | some b => ofBinary negative b

/-- The number nearest to a decimal. Decimals outside the range of numbers are recognised by the
place of their first digit. -/
def ofDecimal (negative : Bool) (digits : Nat) (exponent : Int) : Number :=
  let place : Int := Binary.decimalLength digits + exponent
  if digits = 0 || place < -400 then finite negative 0 0
  else if 400 < place then infinite negative
  else ofQuotient negative (digits * Nat.pow 10 exponent.toNat) (Nat.pow 10 (-exponent).toNat)

def ofNat (n : Nat) : Number := ofDecimal false n 0

/-- Digits in positional form, `point` of them before the point. -/
def positional (digits : Text) (point : Int) : Text :=
  if point ≤ 0 then "0." ++ List.replicate (-point).toNat '0' ++ digits
  else if digits.length ≤ point.toNat then
    digits ++ List.replicate (point.toNat - digits.length) '0'
  else digits.take point.toNat ++ '.' :: digits.drop point.toNat

def scientific (digits : Text) (point : Int) : Text :=
  let exponent := point - 1
  let sign : Char := if exponent < 0 then '-' else '+'
  let mantissa :=
    match digits with
    | d :: e :: rest => d :: '.' :: e :: rest
    | short => short
  mantissa ++ 'e' :: sign :: Text.ofNat exponent.natAbs

/-- A number as it is written. Zero has no sign. -/
def text : Number → Text
  | finite negative digits exponent =>
    if digits = 0 then ['0']
    else
      let ds := Text.ofNat digits
      let point := (ds.length : Int) + exponent
      let body := if -6 < point && point ≤ 21 then positional ds point else scientific ds point
      if negative then '-' :: body else body
  | infinite negative => if negative then "-Infinity" else "Infinity"
  | undefined => "NaN"

/-- Whether a number counts as true: all do but zero and what is not a number. -/
def truthy : Number → Bool
  | finite _ digits _ => digits ≠ 0
  | infinite _ => true
  | undefined => false

def isPositive : Number → Bool
  | finite negative digits _ => !negative && digits ≠ 0
  | infinite negative => !negative
  | undefined => false

/-- A finite number in units of `2 ^ leastExponent`, of which all are whole multiples. -/
def units (negative : Bool) (digits : Nat) (exponent : Int) : Int :=
  match if digits = 0 then none
      else Binary.nearest (digits * Nat.pow 10 exponent.toNat) (Nat.pow 10 (-exponent).toNat) with
  | none => 0
  | some b =>
    let n : Int := (b.mantissa * Nat.pow 2 (b.exponent - Binary.leastExponent).toNat : Nat)
    if negative then -n else n

def add : Number → Number → Number
  | undefined, _ => undefined
  | _, undefined => undefined
  | infinite s, infinite t => if s = t then infinite s else undefined
  | infinite s, _ => infinite s
  | _, infinite t => infinite t
  | finite s d e, finite t f g =>
    let n := units s d e + units t f g
    ofQuotient (if n = 0 then s && t else n < 0) n.natAbs (Nat.pow 2 (-Binary.leastExponent).toNat)

/-- The integer that a number is, if it is one. -/
def toInt? : Number → Option Int
  | finite negative digits exponent =>
    if 0 ≤ exponent then
      let n : Int := (digits * Nat.pow 10 exponent.toNat : Nat)
      some (if negative then -n else n)
    else if digits = 0 then some 0 else none
  | _ => none

/-- The number at the beginning of a text, in the notation of JSON, and what follows it. -/
def read? (t : Text) : Option (Number × Text) :=
  let (negative, t) := match t with
    | '-' :: t => (true, t)
    | t => (false, t)
  let whole := t.takeWhile Text.isDigit
  let t := t.dropWhile Text.isDigit
  if whole.isEmpty || (whole.head? = some '0' && whole.length ≠ 1) then none
  else
    match fraction? t with
    | none => none
    | some (fraction, t) =>
      match exponent? t with
      | none => none
      | some (exponent, t) =>
        let digits := Text.digitsValue (whole ++ fraction)
        some (ofDecimal negative digits (exponent - fraction.length), t)
where
  /-- The digits after a point; none where there is no point. -/
  fraction? : Text → Option (Text × Text)
    | '.' :: t =>
      let digits := t.takeWhile Text.isDigit
      if digits.isEmpty then none else some (digits, t.dropWhile Text.isDigit)
    | t => some ([], t)
  /-- The exponent; zero where there is none. -/
  exponent? : Text → Option (Int × Text)
    | c :: t =>
      if c = 'e' || c = 'E' then
        let (sign, t) : Int × Text := match t with
          | '+' :: t => (1, t)
          | '-' :: t => (-1, t)
          | t => (1, t)
        let digits := t.takeWhile Text.isDigit
        if digits.isEmpty then none
        else some (sign * Text.digitsValue digits, t.dropWhile Text.isDigit)
      else some (0, c :: t)
    | [] => some (0, [])

/-- A decimal without a sign: digits, a point among or beside them, an exponent behind them. -/
def ofDecimalText? (negative : Bool) (t : Text) : Option Number :=
  let whole := t.takeWhile Text.isDigit
  let rest := t.dropWhile Text.isDigit
  let (fraction, rest) := match rest with
    | '.' :: rest => (rest.takeWhile Text.isDigit, rest.dropWhile Text.isDigit)
    | rest => ([], rest)
  if whole.isEmpty && fraction.isEmpty then none
  else
    match read?.exponent? rest with
    | some (exponent, []) =>
      some (ofDecimal negative (Text.digitsValue (whole ++ fraction)) (exponent - fraction.length))
    | _ => none

/-- A natural number from its digits in a base. -/
def ofDigits? (base : Nat) (t : Text) : Option Number :=
  let values := t.filterMap Text.hexValue?
  if t.isEmpty || values.length ≠ t.length || values.any (base ≤ ·) then none
  else some (ofNat (values.foldl (fun n digit => base * n + digit) 0))

/-- The number that a whole text stands for, without the blanks around it: a decimal with a sign or
without, a number in base two, eight or sixteen, or infinity. An empty text stands for zero. -/
def ofText? (t : Text) : Option Number :=
  match Text.trim t with
  | [] => some (ofNat 0)
  | '0' :: c :: t =>
    if c = 'b' || c = 'B' then ofDigits? 2 t
    else if c = 'o' || c = 'O' then ofDigits? 8 t
    else if c = 'x' || c = 'X' then ofDigits? 16 t
    else ofDecimalText? false ('0' :: c :: t)
  | c :: t =>
    let signed := c = '+' || c = '-'
    let rest := if signed then t else c :: t
    if rest = "Infinity" then some (infinite (c = '-')) else ofDecimalText? (c = '-') rest

end Number

end GettextFill
