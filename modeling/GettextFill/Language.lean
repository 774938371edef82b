import GettextFill.Text

/-!
# Language codes

A language code names a locale: two or three lower-case letters, then subtags of two to eight
letters or digits, each after a hyphen or a low line, then a modifier after an at sign. Examples are
`uk`, `pt_BR`, `zh-Hans` and `sr@latin`. `Language.isCode` says which texts are codes.
-/

namespace GettextFill.Language

/-- The characters that separate the subtags of a code. -/
def isSeparator (c : Char) : Bool := c = '_' || c = '-'

def isPrimary (t : Text) : Bool := t.all Text.isLower && 2 ≤ t.length && t.length ≤ 3

/-- A subtag for a script, a region or a variant. -/
def isSubtag (t : Text) : Bool := t.all Text.isAlphanumeric && 2 ≤ t.length && t.length ≤ 8

def areSubtags : List Text → Bool
  | primary :: rest => isPrimary primary && rest.all isSubtag
  | [] => false

/-- Nothing, or an at sign and lower-case letters. -/
def isModifier : Text → Bool
  | [] => true
  | _ :: t => !t.isEmpty && t.all Text.isLower

def isCode (t : Text) : Bool :=
  areSubtags ((t.takeWhile fun c => c ≠ '@').splitOnP isSeparator) &&
    isModifier (t.dropWhile fun c => c ≠ '@')

end GettextFill.Language
