/-!
# Spaces, comments and line ends of TOML

A reader takes something off the front of a text and gives what is left, or refuses. This module
has the parts of the language that carry no value.
-/

namespace CompilerWrapper.Toml

/-- Takes something off the front of a text and gives what is left; `none` where the text is not
TOML. -/
abbrev Reader (α : Type) := List Char → Option (α × List Char)

/-- Space and tab, the only blanks within a line. -/
def isSpace (c : Char) : Bool := c == ' ' || c == '\t'

/-- The characters that may stand for themselves in comments and strings: tab and everything
else but the control characters of ASCII. -/
def isPlain (c : Char) : Bool := c == '\t' || (0x20 ≤ c.toNat && c.toNat != 0x7F)

/-- The text without the spaces at its front. -/
def skipSpaces (text : List Char) : List Char := text.dropWhile isSpace

/-- The text after a line end, a line feed with or without a carriage return before it. -/
def lineEnd? : List Char → Option (List Char)
  | '\n' :: text => some text
  | '\r' :: '\n' :: text => some text
  | _ => none

/-- The text after any spaces, line ends and comments at its front; `comment` tells whether the
front is inside a comment. -/
def skipGap (comment : Bool) : List Char → Option (List Char)
  | [] => some []
  | '\n' :: text => skipGap false text
  | '\r' :: '\n' :: text => skipGap false text
  | c :: text =>
    if comment then if isPlain c then skipGap true text else none
    else if isSpace c then skipGap false text
    else if c = '#' then skipGap true text
    else some (c :: text)

/-- The text after the rest of a line that holds nothing but spaces and a comment. -/
def finishLine (comment : Bool) : List Char → Option (List Char)
  | [] => some []
  | '\n' :: text => some text
  | '\r' :: '\n' :: text => some text
  | c :: text =>
    if comment then if isPlain c then finishLine true text else none
    else if isSpace c then finishLine false text
    else if c = '#' then finishLine true text
    else none

end CompilerWrapper.Toml
