import GettextFill.Text

/-!
# Moments

A moment is the number of milliseconds since the beginning of 1970. `Moment.text` writes it as a
date and a time of day. Days are counted from the first of March of the year 0, so that the day that
some years have more than others is the last of its year.
-/

namespace GettextFill.Moment

/-- Digits of a number, with zeros before them up to a width. -/
def padded (width n : Nat) : Text :=
  let digits := Text.ofNat n
  List.replicate (width - digits.length) '0' ++ digits

/-- The days from the first of March of the year 0 to the beginning of 1970. -/
def epoch : Nat := 719468

/-- Year, month and day of a day counted from the first of March of the year 0. -/
def date (day : Nat) : Nat × Nat × Nat :=
  let era := day / 146097
  let dayOfEra := day % 146097
  let yearOfEra := (dayOfEra - dayOfEra / 1460 + dayOfEra / 36524 - dayOfEra / 146096) / 365
  let dayOfYear := dayOfEra - (365 * yearOfEra + yearOfEra / 4 - yearOfEra / 100)
  let shifted := (5 * dayOfYear + 2) / 153
  let month := if shifted < 10 then shifted + 3 else shifted - 9
  let year := yearOfEra + era * 400
  (if month ≤ 2 then year + 1 else year, month, dayOfYear - (153 * shifted + 2) / 5 + 1)

/-- The day of a year, month and day, counted from the first of March of the year 0. Months and days
may lie outside their ranges and are counted on. -/
def day (year month dayOfMonth : Nat) : Nat :=
  let months := year * 12 + month - 3
  let y := months / 12
  365 * y + y / 4 - y / 100 + y / 400 + (153 * (months % 12) + 2) / 5 + dayOfMonth - 1

def text (milliseconds : Nat) : Text :=
  let seconds := milliseconds / 1000
  let (year, month, day) := date (seconds / 86400 + epoch)
  padded 4 year ++ '-' :: padded 2 month ++ '-' :: padded 2 day ++ 'T' ::
    padded 2 (seconds / 3600 % 24) ++ ':' :: padded 2 (seconds / 60 % 60) ++ ':' ::
    padded 2 (seconds % 60) ++ '.' :: padded 3 (milliseconds % 1000) ++ ['Z']

example : date (day 1999 14 29) = (2000, 2, 29) := by decide

example : text 951827696789 = "2000-02-29T12:34:56.789Z".toList := by decide

end GettextFill.Moment
