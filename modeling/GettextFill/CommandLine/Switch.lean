import GettextFill.Text

/-!
# Switches

A switch is an option that a command line knows, with or without an argument. `Sorted.of` sorts the
words of a command line into switches with their arguments, operands and words that are not known.
After the first unknown switch every word that is not known counts as unknown, because it may be an
argument of that switch; two hyphens end the switches.
-/

namespace GettextFill

/-- An option that a command line knows. -/
structure Switch where
  /-- The letter of the short form. -/
  short : Option Char := none
  /-- The long form without its hyphens. -/
  long : Text
  /-- What the argument is called, if the switch takes one. -/
  argument : Option Text := none
  deriving DecidableEq

namespace Switch

def flag (s : Switch) : Text := '-' :: '-' :: s.long

def takesArgument (s : Switch) : Bool := s.argument.isSome

def isNamed (s : Switch) (word : Text) : Bool :=
  word = s.flag || s.short.any fun c => word = ['-', c]

def usage (s : Switch) : Text :=
  (match s.short with
    | some c => ['-', c, ',', ' ']
    | none => []) ++ s.flag ++
    match s.argument with
    | some name => (" <" : Text) ++ name ++ ">"
    | none => []

def find? (switches : List Switch) (word : Text) : Option Switch :=
  switches.find? fun s => s.isNamed word

/-- The switch of the first letter of a word of several letters after one hyphen, and the letters
after it. -/
def combined? (switches : List Switch) : Text → Option (Switch × Text)
  | '-' :: c :: d :: rest =>
    if c = '-' then none else (find? switches ['-', c]).map fun s => (s, d :: rest)
  | _ => none

/-- The switch of a long form with an equals sign, and the argument after it. -/
def assigned? (switches : List Switch) (word : Text) : Option (Switch × Text) :=
  match word.dropWhile fun c => c ≠ '=' with
  | '=' :: value =>
    match find? switches (word.takeWhile fun c => c ≠ '=') with
    | some s => if s.takesArgument && Text.startsWith ['-', '-'] word then some (s, value) else none
    | none => none
  | _ => none

def isForm : Text → Bool
  | '-' :: _ :: _ => true
  | _ => false

end Switch

/-- The words of a command line, sorted. -/
structure Sorted where
  /-- Switches with their arguments; the argument of a switch that takes none is empty. -/
  found : List (Switch × Text) := []
  operands : List Text := []
  unknown : List Text := []
  /-- The switch at which the sorting ended because its argument is missing. -/
  missing : Option Switch := none

namespace Sorted

/-- One more switch was found before the others. -/
def addFound (s : Switch) (value : Text) (r : Sorted) : Sorted :=
  { r with found := (s, value) :: r.found }

/-- One more word before the others that is no known switch. -/
def addWord (isUnknown : Bool) (word : Text) (r : Sorted) : Sorted :=
  if isUnknown then { r with unknown := word :: r.unknown }
  else { r with operands := word :: r.operands }

/-- Sort words when `unknown` says whether an unknown switch was there before. At most `fuel`
characters and words are left. -/
def sortFrom (switches : List Switch) : Nat → Bool → List Text → Sorted
  | 0, _, _ => {}
  | _ + 1, _, [] => {}
  | fuel + 1, unknown, word :: rest =>
    if word = ['-', '-'] then
      if unknown then { unknown := word :: rest } else { operands := rest }
    else
      match Switch.find? switches word, rest with
      | some s, value :: more =>
        if s.takesArgument then addFound s value (sortFrom switches fuel unknown more)
        else addFound s [] (sortFrom switches fuel unknown rest)
      | some s, [] => if s.takesArgument then { missing := some s } else addFound s [] {}
      | none, _ =>
        match Switch.combined? switches word, Switch.assigned? switches word with
        | some (s, letters), _ =>
          if s.takesArgument then addFound s letters (sortFrom switches fuel unknown rest)
          else addFound s [] (sortFrom switches fuel unknown (('-' :: letters) :: rest))
        | none, some (s, value) => addFound s value (sortFrom switches fuel unknown rest)
        | none, none =>
          let unknown := unknown || Switch.isForm word
          addWord unknown word (sortFrom switches fuel unknown rest)

def of (switches : List Switch) (words : List Text) : Sorted :=
  sortFrom switches ((words.map List.length).foldl (· + ·) 0 + words.length) false words

end Sorted

end GettextFill
