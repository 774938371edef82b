import GettextFill.Text.Units

/-!
# Suggestions for unknown options

An option that is not known may be a slip for one that is. `Suggestion.distance` counts the
insertions, deletions, substitutions and swaps of neighbours that lead from one word to another, and
`Suggestion.similar` lists the known words that are nearest to a word, if they are near at all. The
letters of a word are its units.
-/

namespace GettextFill.Suggestion

/-- The largest distance at which a word is near. -/
def nearest : Nat := 3

/-- One row of the table of distances, from the two rows above it. `c` is the letter of the row and
`above` the one before it; `letters` are the letters of the other word with those before them.
`left` is the entry on the left. The rows above begin with the entry on the left, the earlier one
with the entry further left. -/
def nextEntries (c : Nat) (above before : Option Nat) (left : Nat) :
    (letters earlier previous : List Nat) → List Nat
  | d :: letters, earlier, diagonal :: up :: previous =>
    let cost := if c = d then 0 else 1
    let least := min (min (up + 1) (left + 1)) (diagonal + cost)
    let entry := match before, above, earlier with
      | some b, some a, swapped :: _ => if c = b && a = d then min least (swapped + 1) else least
      | _, _, _ => least
    let earlier := match before with
      | none => earlier
      | some _ => earlier.tail
    entry :: nextEntries c above (some d) entry letters earlier (up :: previous)
  | _, _, _ => []

def lastRow (letters : List Nat) (above : Option Nat) (place : Nat) (earlier previous : List Nat) :
    List Nat → List Nat
  | [] => previous
  | c :: rest =>
    let row := place :: nextEntries c above none place letters earlier previous
    lastRow letters (some c) (place + 1) previous row rest

/-- The number of steps from one word to another. Words whose lengths are far apart count as
different in every letter. -/
def distance (s t : List Nat) : Nat :=
  if nearest < max s.length t.length - min s.length t.length then max s.length t.length
  else ((lastRow t none 1 [] (List.range (t.length + 1)) s).getLast?).getD 0

/-- Whether a word at a distance still has enough in common with another: more than two fifths of
the longer word. -/
def hasEnough (s t : List Nat) (steps : Nat) : Bool :=
  let length := max s.length t.length
  2 * length < 5 * (length - steps)

/-- The best words so far with their distance, and one more word. -/
def improve (word : Text) (best : Nat × List Text) (candidate : Text) : Nat × List Text :=
  let letters := Text.units candidate
  let steps := distance (Text.units word) letters
  if letters.length ≤ 1 || !hasEnough (Text.units word) letters steps then best
  else if steps < best.1 then (steps, [candidate])
  else if steps = best.1 then (best.1, best.2 ++ [candidate])
  else best

def similar (word : Text) (candidates : List Text) : List Text :=
  (candidates.eraseDups.foldl (improve word) (nearest, [])).2.mergeSort
    fun s t => !Text.unitsBefore t s

/-- What is said after the error about an unknown option. -/
def text (flag : Text) (names : List Text) : Text :=
  match Text.after? ['-', '-'] flag with
  | none => []
  | some word =>
    match (similar word names).map fun name => '-' :: '-' :: name with
    | [] => []
    | [one] => ("\n(Did you mean " : Text) ++ one ++ "?)"
    | several => ("\n(Did you mean one of " : Text) ++ Text.join ", " several ++ "?)"

end GettextFill.Suggestion
