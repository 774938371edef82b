import GettextFill.Text.Units

/-!
# Texts in quotes

`Text.quoted` writes a text in quotes so that it is seen where it begins and ends and which controls
it holds. Single quotes are preferred; a text that has one is written in double quotes or, if it has
these too, between backticks.
-/

namespace GettextFill.Text

def quoteFor (t : Text) : Char :=
  if !t.contains '\'' then '\''
  else if !t.contains '"' then '"'
  else if !t.contains (Char.ofNat 96) && !occursIn ['$', '\x7b'] t then Char.ofNat 96
  else '\''

def quotedChar (quote c : Char) : Text :=
  if c = '\\' || (c = quote && c = '\'') then ['\\', c]
  else if c = '\n' then ['\\', 'n']
  else if c = '\t' then ['\\', 't']
  else if c = '\r' then ['\\', 'r']
  else if c = '\x08' then ['\\', 'b']
  else if c = '\x0c' then ['\\', 'f']
  else if c < ' ' || ('\x7f' ≤ c && c ≤ '\u009f') then
    '\\' :: 'x' :: toUpper [hexDigit (c.toNat / 16), hexDigit (c.toNat % 16)]
  else [c]

def quoted (t : Text) : Text :=
  let quote := quoteFor t
  quote :: (t.flatMap (quotedChar quote) ++ [quote])

/-- The lines of a text, each with the line feed that ends it. -/
def endedLines : Text → List Text
  | [] => []
  | c :: t =>
    match endedLines t with
    | [] => [[c]]
    | line :: rest => if c = '\n' then [c] :: line :: rest else (c :: line) :: rest

end GettextFill.Text
