import GettextFill.Text

/-!
# Tokens of a catalog

The tools that use catalogs do not read them line by line. They cut the characters into tokens: a
key is a run of word characters, hyphens and brackets, a string stands between two equal quotes, a
comment runs from a number sign to the end of its line. What follows `#~` is obsolete.

`Lexer.step` reads one character; `Lexer.run` reads a text from any state. A key that is no known
keyword stops the reading.
-/

namespace GettextFill

/-- A token of a catalog. -/
inductive Token
  | key (name : Text) (obsolete : Bool)
  | string (value : Text)
  | comment (text : Text)
  deriving DecidableEq

/-- A key that is no keyword, with the number of the line on which it was noticed. -/
structure UnknownKey where
  name : Text
  line : Nat
  deriving DecidableEq

namespace Lexer

/-- Where the lexer stands. -/
inductive Mode
  /-- Between tokens; `obsolete` after the mark of an obsolete message. -/
  | between (obsolete : Bool)
  | comment (text : Text)
  | string (quote : Char) (value : Text) (escaped : Bool)
  | key (name : Text) (obsolete : Bool)
  deriving DecidableEq

end Lexer

/-- The state of reading: the tokens that are complete, the mode, and the number of the line. -/
structure Lexer where
  tokens : List Token := []
  mode : Lexer.Mode := .between false
  line : Nat := 1
  deriving DecidableEq

namespace Lexer

def isKeyChar (c : Char) : Bool := Text.isWord c || c = '-' || c = '[' || c = ']'

/-- Whether a text is a plural form in brackets, or nothing. -/
def isFormSuffix : Text → Bool
  | [] => true
  | '[' :: t =>
    match t.reverse with
    | ']' :: digits => !digits.isEmpty && digits.all Text.isDigit
    | _ => false
  | _ => false

def isKnownKey (name : Text) : Bool :=
  name = "msgctxt" || name = "msgid" || name = "msgid_plural" ||
    ((Text.after? "msgstr" name).map isFormSuffix).getD false

/-- The character that stands for `c` after a backslash in a string: three letters have a meaning,
everything else means itself. -/
def escaped : Char → Char
  | 't' => '\t'
  | 'n' => '\n'
  | 'r' => '\r'
  | c => c

/-- The mode after a character between tokens. -/
def openToken (obsolete : Bool) (c : Char) : Mode :=
  if c = '"' || c = '\'' then .string c [] false
  else if c = '#' then .comment []
  else if Text.isBlank c then .between obsolete
  else .key [c] obsolete

/-- Read one character. A line feed that ends a key is met twice, as the end of the key and as a
blank, and counts as two lines. -/
def step (s : Lexer) (c : Char) : Except UnknownKey Lexer :=
  let line := if c = '\n' then s.line + 1 else s.line
  match s.mode with
  | .between obsolete => .ok { s with mode := openToken obsolete c, line }
  | .comment text =>
    if c = '\n' then
      .ok { tokens := s.tokens ++ [.comment text], mode := .between false, line }
    else if c = '~' && text.isEmpty then
      .ok { tokens := s.tokens ++ [.comment ['~']], mode := .between true, line }
    else if c = '\r' then .ok { s with line }
    else .ok { s with mode := .comment (text ++ [c]), line }
  | .string quote value true =>
    .ok { s with mode := .string quote (value ++ [escaped c]) false, line }
  | .string quote value false =>
    if c = quote then .ok { tokens := s.tokens ++ [.string value], mode := .between false, line }
    else if c = '\\' then .ok { s with mode := .string quote value true, line }
    else .ok { s with mode := .string quote (value ++ [c]) false, line }
  | .key name obsolete =>
    if isKeyChar c then .ok { s with mode := .key (name ++ [c]) obsolete, line }
    else if isKnownKey name then
      .ok { tokens := s.tokens ++ [.key name obsolete], mode := openToken false c,
            line := if c = '\n' then line + 1 else line }
    else .error { name, line }

def run (s : Lexer) : Text → Except UnknownKey Lexer
  | [] => .ok s
  | c :: t =>
    match s.step c with
    | .ok s => run s t
    | .error e => .error e

/-- All tokens, with the one that the end of the text has cut short. -/
def finish (s : Lexer) : List Token :=
  match s.mode with
  | .between _ => s.tokens
  | .comment text => s.tokens ++ [.comment text]
  | .string _ value _ => s.tokens ++ [.string value]
  | .key name obsolete => s.tokens ++ [.key name obsolete]

@[simp] theorem run_nil (s : Lexer) : s.run [] = .ok s := rfl

theorem run_cons (s : Lexer) (c : Char) (t : Text) :
    s.run (c :: t) = (s.step c).bind fun s => s.run t := by
  rw [run]
  cases s.step c <;> rfl

end Lexer

def Token.ofText (t : Text) : Except UnknownKey (List Token) := (Lexer.run {} t).map Lexer.finish

end GettextFill
