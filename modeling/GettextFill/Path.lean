import GettextFill.Text

/-!
# Paths

A path is a text whose segments are separated by slashes. An empty segment and `.` stay where they
are, `..` leaves the segment before it. All operations here look at the text alone and never at a
file system.

`Path.normalize` resolves segments and keeps a slash at the end, `Path.join` puts paths one below
the other, `Path.resolve` reads a path from a working directory. `Path.directory`, `Path.base` and
`Path.extension` take a path apart.
-/

namespace GettextFill.Path

/-- The segment that leaves the one before it. -/
def parent : Text := ['.', '.']

def pieces (p : Text) : List Text := p.splitOn '/'

def isAbsolute (p : Text) : Bool := p.head? = some '/'

/-- Go one segment further. The segments gone so far are given with the last one first. At the
root `..` stays there; elsewhere it leads `above` the beginning. -/
def descend (above : Bool) (gone : List Text) (segment : Text) : List Text :=
  if segment = [] || segment = ['.'] then gone
  else if segment = parent then
    match gone with
    | [] => if above then [parent] else []
    | last :: rest => if last = parent then parent :: last :: rest else rest
  else segment :: gone

/-- The segments of a path that are left when every `..` that can be is resolved. -/
def segments (p : Text) : List Text :=
  ((pieces p).foldl (descend (!isAbsolute p)) []).reverse

/-- A path without needless segments. A slash at its end is kept. -/
def normalize (p : Text) : Text :=
  if p.isEmpty then ['.']
  else
    let body := Text.join ['/'] (segments p)
    let slash : Text := if p.getLast? = some '/' then ['/'] else []
    if isAbsolute p then (if body.isEmpty then ['/'] else '/' :: (body ++ slash))
    else if body.isEmpty then '.' :: slash
    else body ++ slash

def join (paths : List Text) : Text :=
  normalize (Text.join ['/'] (paths.filter fun p => !p.isEmpty))

/-- A path read from a working directory, which is absolute. -/
def resolve (directory p : Text) : Text :=
  '/' :: Text.join ['/'] (segments (if isAbsolute p then p else directory ++ '/' :: p))

def dropSlashes (p : Text) : Text := (p.reverse.dropWhile fun c => c = '/').reverse

def base (p : Text) : Text := ((dropSlashes p).reverse.takeWhile fun c => c ≠ '/').reverse

/-- The path of the directory that a path lies in. -/
def directory (p : Text) : Text :=
  let above := ((dropSlashes p).reverse.dropWhile fun c => c ≠ '/').reverse
  match above with
  | [] => if isAbsolute p then ['/'] else ['.']
  | ['/'] => ['/']
  | ['/', '/'] => ['/', '/']
  | _ => above.dropLast

/-- The names that a path ends in: its last segment if that is a name, and those before it. Slashes
at the end do not count. -/
def lastName? (p : Text) : Option (List Text × Text) :=
  match ((pieces p).reverse.dropWhile List.isEmpty) with
  | [] => none
  | name :: above => if name = ['.'] || name = parent then none else some (above.reverse, name)

/-- A path and what is left of it when it is cut at its last slash, again and again. -/
def upwards (p : Text) : List Text :=
  let names := pieces p
  (List.range names.length).reverse.map fun n => Text.join ['/'] (names.take (n + 1))

/-- What follows the last point of the last segment, with the point. A point that the segment begins
with does not count. -/
def extension (p : Text) : Text :=
  let name := base p
  if name = parent then []
  else
    match name.reverse.dropWhile fun c => c ≠ '.' with
    | '.' :: _ :: _ => '.' :: (name.reverse.takeWhile fun c => c ≠ '.').reverse
    | _ => []

def catalog (directory language extension : Text) : Text := join [directory, language ++ extension]

end GettextFill.Path
