import GettextFill.Document
import GettextFill.Moment

/-!
# The meaning of unquoted text

Unquoted text in YAML may stand for something other than a text: for null, a truth value, a number
or a date. `Plain.read` decides what it stands for. As a key a value is written in one form,
whatever the form in which it was given: `1.50` is the key `1.5`.

A date has no parts and is no text, so it is an object without fields; its key is the date in words.
-/

namespace GettextFill.Yaml

/-- A value with the key that it is. -/
structure Value where
  document : Document
  key : Text

namespace Plain

/-- The digits of a number in a base, of which there is one at least. -/
def digitsIn (isDigit : Char → Bool) (t : Text) : Option Text :=
  if !t.isEmpty && t.all isDigit then some t else none

def valueIn (base : Nat) (digits : Text) : Nat :=
  digits.foldl (fun n c => base * n + (Text.hexValue? c).getD 0) 0

def sign : Text → Bool × Text
  | '-' :: t => (true, t)
  | '+' :: t => (false, t)
  | t => (false, t)

/-- A number within the range of numbers. One that is too great stays the text that it is. -/
def inRange? : Number → Option Number
  | .finite negative digits exponent => some (.finite negative digits exponent)
  | _ => none

/-- A whole number in base two, eight, ten or sixteen. -/
def integer? (t : Text) : Option Number :=
  let (negative, t) := sign t
  let whole (base : Nat) (digits : Text) : Option Number :=
    inRange? (Number.ofDecimal negative (valueIn base digits) 0)
  match t with
  | '0' :: 'b' :: t => (digitsIn (fun c => c = '0' || c = '1') t).bind (whole 2)
  | '0' :: 'x' :: t => (digitsIn (fun c => (Text.hexValue? c).isSome) t).bind (whole 16)
  | '0' :: 'o' :: t => (digitsIn (fun c => '0' ≤ c && c ≤ '7') t).bind (whole 8)
  | t => (digitsIn Text.isDigit t).bind (whole 10)

/-- The digits at the beginning of a text, and what follows them. -/
def digitRun (t : Text) : Text × Text := (t.takeWhile Text.isDigit, t.dropWhile Text.isDigit)

def exponent? : Text → Option Int
  | [] => some 0
  | c :: t =>
    let (negative, digits) := sign t
    if (c = 'e' || c = 'E') && !digits.isEmpty && digits.all Text.isDigit then
      let n : Int := Text.digitsValue digits
      some (if negative then -n else n)
    else none

/-- A number with a point or an exponent from its parts. -/
def assemble (negative : Bool) (whole fraction rest : Text) : Option Number :=
  (exponent? rest).bind fun e =>
    let digits := Text.digitsValue (whole ++ fraction)
    inRange? (Number.ofDecimal negative digits (e - fraction.length))

/-- A number with a point or an exponent, or one of the two that are not finite. -/
def float? (t : Text) : Option Number :=
  if t = ".nan" || t = ".NaN" || t = ".NAN" then some .undefined
  else
    match t with
    | '.' :: rest =>
      if rest = "inf" || rest = "Inf" || rest = "INF" then some (.infinite false)
      else
        let (fraction, rest) := digitRun rest
        if fraction.isEmpty then none else assemble false [] fraction rest
    | t =>
      let (negative, t) := sign t
      if t = ".inf" || t = ".Inf" || t = ".INF" then some (.infinite negative)
      else
        match t with
        | [] => none
        | c :: _ =>
          if !Text.isDigit c then none
          else
            match digitRun t with
            | (whole, '.' :: rest) =>
              let (fraction, rest) := digitRun rest
              assemble negative whole fraction rest
            | (whole, rest) => assemble negative whole [] rest

/-- Between `least` and `greatest` digits at the beginning of a text, and what follows them. -/
def someDigits? (least greatest : Nat) (t : Text) : Option (Nat × Text) :=
  let digits := (t.take greatest).takeWhile Text.isDigit
  if digits.length < least then none
  else some (Text.digitsValue digits, t.drop digits.length)

def expect (c : Char) : Text → Option Text
  | d :: t => if c = d then some t else none
  | [] => none

/-- Whether what follows a time of day is a time zone or nothing; the zone in minutes. -/
def zone? (t : Text) : Option Int :=
  match t with
  | [] => some 0
  | t =>
    match t.dropWhile (fun c => c = ' ' || c = '\t') with
    | ['Z'] => some 0
    | c :: t =>
      if c = '+' || c = '-' then
        match someDigits? 1 2 t with
        | some (hours, []) => some (if c = '-' then -(60 * hours : Int) else 60 * hours)
        | some (hours, ':' :: t) =>
          match someDigits? 2 2 t with
          | some (minutes, []) =>
            let n : Int := 60 * hours + minutes
            some (if c = '-' then -n else n)
          | _ => none
        | _ => none
      else none
    | [] => none

/-- The time of day after a date, in seconds, less what its zone is ahead. -/
def timeOfDay? (t : Text) : Option Int := do
  let t ← match t with
    | 'T' :: t => some t
    | 't' :: t => some t
    | c :: t =>
      if c = ' ' || c = '\t' then some (t.dropWhile fun c => c = ' ' || c = '\t') else none
    | [] => none
  let (hours, t) ← someDigits? 1 2 t
  let t ← expect ':' t
  let (minutes, t) ← someDigits? 2 2 t
  let t ← expect ':' t
  let (seconds, t) ← someDigits? 2 2 t
  let t := match t with
    | '.' :: t => t.dropWhile Text.isDigit
    | t => t
  let ahead ← zone? t
  return (3600 * hours + 60 * minutes + seconds : Int) - 60 * ahead

/-- The seconds from the first of March of the year 0 that a date stands for, alone or with a time
of day. Years without a century are of the twentieth. -/
def moment? (t : Text) : Option Int := do
  let (year, r) ← someDigits? 4 4 t
  let r ← expect '-' r
  let (month, r) ← someDigits? 1 2 r
  let r ← expect '-' r
  let (day, r) ← someDigits? 1 2 r
  let days : Int := Moment.day (if year < 100 then year + 1900 else year) month day
  if r.isEmpty then (if t.length = 10 then some (86400 * days) else none)
  else return 86400 * days + (← timeOfDay? r)

/-- Abbreviated names of the days of a week, from the first of March of the year 0 on. -/
def weekdays : List Text := ["Wed", "Thu", "Fri", "Sat", "Sun", "Mon", "Tue"]

def months : List Text :=
  ["Jan", "Feb", "Mar", "Apr", "May", "Jun", "Jul", "Aug", "Sep", "Oct", "Nov", "Dec"]

def momentText (seconds : Int) : Text :=
  let n := seconds.toNat
  let (year, month, day) := Moment.date (n / 86400)
  weekdays.getD (n / 86400 % 7) [] ++ ' ' :: months.getD (month - 1) [] ++ ' ' ::
    Moment.padded 2 day ++ ' ' :: Moment.padded 4 year ++ ' ' :: Moment.padded 2 (n / 3600 % 24) ++
    ':' :: Moment.padded 2 (n / 60 % 60) ++ ':' :: Moment.padded 2 (n % 60) ++
    " GMT+0000 (Coordinated Universal Time)"

def read (t : Text) : Value :=
  if t = "~" || t = "null" || t = "Null" || t = "NULL" then { document := .null, key := "null" }
  else if t = "true" || t = "True" || t = "TRUE" then { document := .bool true, key := "true" }
  else if t = "false" || t = "False" || t = "FALSE" then { document := .bool false, key := "false" }
  else
    match integer? t with
    | some n => { document := .number n, key := n.text }
    | none =>
      match float? t with
      | some n => { document := .number n, key := n.text }
      | none =>
        match moment? t with
        | some s => { document := .object [], key := momentText s }
        | none => { document := .text t, key := t }

end Plain

end GettextFill.Yaml
