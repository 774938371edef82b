import GettextFill.Host

/-!
# References to variables

The value of a variable may refer to others as `$NAME` or `$` and the name in braces; a backslash
before the dollar sign keeps it from being a reference. `Reference.scan` finds the references of a
value, `expandValue` puts values in their places. What a reference stands for is expanded in the
same way before it is put in. A value with a reference that leads back to itself is lost, and that
is warned of; a reference without a value stays as it stands.
-/

namespace GettextFill

/-- A place of a value where a dollar sign stands. -/
structure Reference where
  /-- The character before the dollar sign, if the place has one. -/
  before : Option Char
  /-- The dollar sign with what belongs to it. -/
  text : Text
  /-- The name that it refers to, if there is one. -/
  name : Option Text
  deriving DecidableEq

namespace Reference

def isNameChar (c : Char) : Bool := Text.isWord c || c = ':'

/-- One character, if a text begins with it, and the rest. -/
def optional? (c : Char) : Text → Text × Text
  | [] => ([], [])
  | d :: t => if d = c then ([c], t) else ([], d :: t)

/-- The reference that begins with a dollar sign, from what follows the sign, and the rest. -/
def afterSign (before : Option Char) (t : Text) : Reference × Text :=
  let (opening, t) := optional? '\x7b' t
  let name := t.takeWhile isNameChar
  let (closing, rest) := optional? '\x7d' (t.dropWhile isNameChar)
  ({ before, text := '$' :: (opening ++ name ++ closing),
     name := if name.isEmpty then none else some name }, rest)

/-- The references of a value. At most `fuel` characters are left. -/
def scanFrom : Nat → Text → List Reference
  | 0, _ => []
  | _ + 1, [] => []
  | _ + 1, [c] => if c = '$' then [(afterSign none []).1] else []
  | fuel + 1, c :: d :: t =>
    if d = '$' && !Text.isBreak c then
      let (found, rest) := afterSign (some c) t
      found :: scanFrom fuel rest
    else if c = '$' then
      let (found, rest) := afterSign none (d :: t)
      found :: scanFrom fuel rest
    else scanFrom fuel (d :: t)

def scan (t : Text) : List Reference := scanFrom t.length t

/-- A text at its first occurrence in another: what stands before it and what follows. -/
def split? (part : Text) : Text → Option (Text × Text)
  | [] => if part.isEmpty then some ([], []) else none
  | c :: t =>
    match Text.after? part (c :: t) with
    | some rest => some ([], rest)
    | none => (split? part t).map fun (before, after) => (c :: before, after)

/-- What is put in the place of a part: two dollar signs stand for one, a dollar sign with an
ampersand for the part itself, with a backtick or an apostrophe for what stands before or after the
part. -/
def filling (part before after : Text) : Text → Text
  | '$' :: c :: t =>
    if c = '$' then '$' :: filling part before after t
    else if c = '&' then part ++ filling part before after t
    else if c = Char.ofNat 96 then before ++ filling part before after t
    else if c = '\'' then after ++ filling part before after t
    else '$' :: filling part before after (c :: t)
  | c :: t => c :: filling part before after t
  | [] => []

/-- A text with something else in the place of the first occurrence of a part. -/
def replaceFirst (part new t : Text) : Text :=
  match split? part t with
  | none => t
  | some (before, after) => before ++ filling part before after new ++ after

end Reference

/-- What cannot be put in the place of a reference. -/
inductive ReferenceFlaw
  /-- The name belongs to something that every object answers and that is no value. -/
  | notValue (name : Text)
  deriving DecidableEq

def ReferenceFlaw.message : ReferenceFlaw → Text
  | notValue name => ("the reference to '" : Text) ++ name ++ "' has no value"

/-- What stands for a reference to a name that every object answers. Where it is none the reference
stays as it stands. -/
def reservedValue? (name : Text) : Except ReferenceFlaw (Option Text) :=
  if name = "isPrototypeOf" then .ok (some "false")
  else if name = "toString" then .ok (some "[object Undefined]")
  else if name = "__proto__" then .ok (some "[object Object]")
  else if name = "constructor" then .ok none
  else .error (.notValue name)

variable {m : Type → Type} [Monad m] [Host m]

/-- Warn of a reference that leads back to itself. A reference without a name leads to the variable
`undefined`. -/
def warnOfLoop (parents : List (Option Text)) (name : Option Text) : m Unit :=
  Host.say .warn
    [.text (("Please avoid recursive environment variables ( loop: " : Text) ++
      Text.join " > " (parents.map fun parent => parent.getD []) ++ " > " ++
      name.getD "undefined" ++ " )")]

/-- A value with its references expanded. They may lead over at most `fuel` names; `parents` are the
names on the way here. -/
def expandValue (known : Dictionary Text) (fuel : Nat) (parents : List (Option Text))
    (value : Text) : ExceptT ReferenceFlaw m Text :=
  (Reference.scan value).foldlM (fun t found => do
    if found.before = some '\\' then
      return Reference.replaceFirst ('\\' :: found.text) found.text t
    else if parents.contains found.name then
      let warning : m Unit := warnOfLoop parents found.name
      warning
      return []
    else
      let name := found.name.getD "undefined"
      if Dictionary.isReserved name then
        if (Reference.split? found.text t).isNone then return t
        match ← liftExcept (reservedValue? name) with
        | none => return t
        | some inner => return Reference.replaceFirst found.text inner t
      else
        match known.get? name, fuel with
        | some inner, fuel + 1 => do
          let inner ← expandValue known fuel (parents ++ [found.name]) inner
          return Reference.replaceFirst found.text inner t
        | _, _ => return t) value
where
  /-- A result that does not depend on the host. -/
  liftExcept {α : Type} (r : Except ReferenceFlaw α) : ExceptT ReferenceFlaw m α :=
    ExceptT.mk (pure r)

/-- Known values with the references of these names expanded, one after the other. A name that every
object answers is never taken from what is known. -/
def expandAll (known : Dictionary Text) : List Text → ExceptT ReferenceFlaw m (Dictionary Text)
  | [] => return known
  | name :: rest => do
    match if Dictionary.isReserved name then none else known.get? name with
    | some value => do
      let value ← expandValue known (known.length + 1) [] value
      expandAll (known.insert name value) rest
    | none => expandAll known rest

end GettextFill
