import GettextFill.Document
import GettextFill.Language
import GettextFill.Path

/-!
# Given values

Values that a user has given are checked before anything is done with them. `Input.language`,
`Input.languages`, `Input.path` and `Input.extension` accept a document or name its flaw, and give
the value in the form in which it is used: language codes and paths without the blanks around them,
lists of languages without repetitions, paths without needless segments.
-/

namespace GettextFill

/-- What is wrong with a given value. -/
inductive InputFlaw
  | blank
  | notLanguage (given : Text)
  | notList
  | nullByte
  | notExtension
  deriving DecidableEq

namespace InputFlaw

/-- The flaw in words that follow the name of the field. -/
def reason : InputFlaw → Text
  | blank => "must be a non-empty string"
  | notLanguage given =>
    ("is not a valid language code: '" : Text) ++ given ++
      "' (expected e.g. 'de', 'pt_BR', 'sr@latin')"
  | notList => "must be a list of language codes"
  | nullByte => "contains a null byte"
  | notExtension => "must start with a dot followed by letters or digits, e.g. '.po'"

end InputFlaw

namespace Input

def text? : Option Document → Option Text
  | some (.text t) => if t.all Text.isBlank then none else some t
  | _ => none

/-- A language code without the blanks around it. -/
def language (given : Option Document) : Except InputFlaw Text :=
  match text? given with
  | none => .error .blank
  | some t =>
    if Language.isCode (Text.trim t) then .ok (Text.trim t) else .error (.notLanguage (Text.trim t))

/-- Every item a language code; the first flaw is reported. -/
def languageItems : List Document → Except InputFlaw (List Text)
  | [] => .ok []
  | item :: rest =>
    match language (some item) with
    | .error flaw => .error flaw
    | .ok code => (languageItems rest).map (code :: ·)

/-- A list of language codes, each at its first place. -/
def languages : Option Document → Except InputFlaw (List Text)
  | some (.list items) => (languageItems items).map List.eraseDups
  | _ => .error .notList

/-- A path without the blanks around it and without needless segments. -/
def path (given : Option Document) : Except InputFlaw Text :=
  match text? given with
  | none => .error .blank
  | some t =>
    if t.contains '\x00' then .error .nullByte else .ok (Path.normalize (Text.trim t))

/-- Whether a text is a point and letters or digits after it. -/
def isExtension : Text → Bool
  | '.' :: t => !t.isEmpty && t.all Text.isAlphanumeric
  | _ => false

def extension : Option Document → Except InputFlaw Text
  | some (.text t) => if isExtension t then .ok t else .error .notExtension
  | _ => .error .notExtension

end Input

end GettextFill
