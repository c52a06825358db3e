import CompilerWrapper.Toml.Reader

/-!
# TOML strings

A string is basic, between quotation marks and with escapes, or literal, between apostrophes and
without. Three marks open a string of several lines: the line end right after them is dropped, and
up to two further marks may stand just before the closing ones. In a basic string of several lines
a backslash at the end of a line joins it to the next character that is no blank.

A string is read piece by piece until it closes. A piece is one character, an escape, or a joined
line, which stands for no character at all.
-/

namespace CompilerWrapper.Toml

/-- The value of a digit in the given base, at most sixteen; letters count in either case. -/
def digit? (base : Nat) (c : Char) : Option Nat :=
  let n := c.toNat
  let value :=
    if '0'.toNat ≤ n ∧ n ≤ '9'.toNat then n - '0'.toNat
    else if 'a'.toNat ≤ n ∧ n ≤ 'f'.toNat then n - 'a'.toNat + 10
    else if 'A'.toNat ≤ n ∧ n ≤ 'F'.toNat then n - 'A'.toNat + 10
    else base
  if value < base then some value else none

/-- The character with the given number, unless the number is a surrogate or too large. -/
def charOf? (n : Nat) : Option Char :=
  if n.isValidChar then some (Char.ofNat n) else none

/-- The character whose number is written in exactly `digits` hexadecimal digits. -/
def codePoint (digits : Nat) (text : List Char) : Option (Char × List Char) := do
  let number := text.take digits
  if number.length < digits then none
  let values ← number.mapM (digit? 16)
  let c ← charOf? (values.foldl (· * 16 + ·) 0)
  pure (c, text.drop digits)

/-- The escapes of one letter. -/
def shortEscape? : Char → Option Char
  | 'b' => some '\x08'
  | 't' => some '\t'
  | 'n' => some '\n'
  | 'f' => some '\x0c'
  | 'r' => some '\r'
  | 'e' => some '\x1b'
  | '"' => some '"'
  | '\\' => some '\\'
  | _ => none

/-- What follows the backslash of an escape. -/
def escape : Reader (List Char)
  | 'x' :: text => (codePoint 2 text).map fun (c, rest) => ([c], rest)
  | 'u' :: text => (codePoint 4 text).map fun (c, rest) => ([c], rest)
  | 'U' :: text => (codePoint 8 text).map fun (c, rest) => ([c], rest)
  | c :: text => (shortEscape? c).map fun c => ([c], text)
  | [] => none

/-- The text without the blanks and line ends at its front. -/
def skipBlankLines : List Char → List Char
  | '\n' :: text => skipBlankLines text
  | '\r' :: '\n' :: text => skipBlankLines text
  | c :: text => if isSpace c then skipBlankLines text else c :: text
  | [] => []

/-- What follows the backslash in a basic string of several lines: an escape, or the end of a
line that is to be joined to the next. -/
def escapeOrJoin (text : List Char) : Option (List Char × List Char) :=
  match lineEnd? (skipSpaces text) with
  | some rest => some ([], skipBlankLines rest)
  | none => escape text

/-- One character of a string of several lines, or one line end as it is written. -/
def manyLinePiece : Reader (List Char)
  | '\n' :: text => some (['\n'], text)
  | '\r' :: '\n' :: text => some (['\r', '\n'], text)
  | c :: text => if isPlain c then some ([c], text) else none
  | [] => none

/-- One character of a string on one line. -/
def oneLinePiece : Reader (List Char)
  | c :: text => if isPlain c then some ([c], text) else none
  | [] => none

/-- A form of string: how its pieces read, and how it closes. Closing may give some last
characters. -/
structure StringForm where
  piece : Reader (List Char)
  close : Reader (List Char)

/-- Three closing marks, and up to two more before them that belong to the string. -/
def closeMany (mark : Char) (text : List Char) : Option (List Char × List Char) :=
  match (text.takeWhile (· == mark)).length with
  | 0 | 1 | 2 => none
  | 3 => some ([], text.drop 3)
  | 4 => some ([mark], text.drop 4)
  | _ => some ([mark, mark], text.drop 5)

/-- One closing mark. -/
def closeOne (mark : Char) : Reader (List Char)
  | c :: text => if c = mark then some ([], text) else none
  | [] => none

/-- A string between quotation marks. -/
def StringForm.basic : StringForm where
  piece
    | '\\' :: text => escape text
    | text => oneLinePiece text
  close := closeOne '"'

/-- A string between apostrophes. -/
def StringForm.literal : StringForm where
  piece := oneLinePiece
  close := closeOne '\''

/-- A string between three quotation marks. -/
def StringForm.manyLineBasic : StringForm where
  piece
    | '\\' :: text => escapeOrJoin text
    | text => manyLinePiece text
  close := closeMany '"'

/-- A string between three apostrophes. -/
def StringForm.manyLineLiteral : StringForm where
  piece := manyLinePiece
  close := closeMany '\''

/-- Reads pieces until the string closes; `done` holds in reverse what was read, and every piece
uses up one unit of `fuel`. -/
def StringForm.readPieces (form : StringForm) (done : List Char) :
    (fuel : Nat) → Reader (List Char)
  | 0, _ => none
  | fuel + 1, text =>
    match form.close text with
    | some (last, rest) => some (done.reverse ++ last, rest)
    | none => do
      let (piece, rest) ← form.piece text
      form.readPieces (piece.reverse ++ done) fuel rest

/-- Reads a string of the given form whose opening marks have been taken off. A piece takes at
least one character, so the length of the text bounds their number. -/
def StringForm.read (form : StringForm) (text : List Char) : Option (List Char × List Char) :=
  form.readPieces [] (text.length + 1) text

/-- The text after one line end at its front, if there is one. -/
def dropLineEnd (text : List Char) : List Char := (lineEnd? text).getD text

/-- A string on one line, as a key may be written. -/
def oneLineString : Reader (List Char)
  | '"' :: text => StringForm.basic.read text
  | '\'' :: text => StringForm.literal.read text
  | _ => none

/-- A string of any form. -/
def quotedString : Reader (List Char)
  | '"' :: '"' :: '"' :: text => StringForm.manyLineBasic.read (dropLineEnd text)
  | '\'' :: '\'' :: '\'' :: text => StringForm.manyLineLiteral.read (dropLineEnd text)
  | text => oneLineString text

end CompilerWrapper.Toml
