/-!
# Lines and white space

A character is blank if Unicode gives it the property `White_Space`; a line ends at a line feed,
and a carriage return just before the line feed belongs to the ending.
-/

namespace CompilerWrapper.Text

/-- The characters with the Unicode property `White_Space`, as ranges of code points. -/
def blankRanges : List (Nat × Nat) :=
  [(0x09, 0x0D), (0x20, 0x20), (0x85, 0x85), (0xA0, 0xA0), (0x1680, 0x1680), (0x2000, 0x200A),
   (0x2028, 0x2029), (0x202F, 0x202F), (0x205F, 0x205F), (0x3000, 0x3000)]

/-- Whether the character is white space. -/
def isBlank (c : Char) : Bool :=
  blankRanges.any fun r => r.1 ≤ c.toNat && c.toNat ≤ r.2

/-- Whether there is anything but white space in the text. -/
def isWritten (text : List Char) : Bool :=
  text.any fun c => !isBlank c

/-- The line that has been read so far, in reverse, once its line feed is reached: one carriage
return before the line feed is dropped. -/
def endLine : List Char → List Char
  | '\r' :: line => line.reverse
  | line => line.reverse

/-- The lines of the text after `line`, the beginning of a line, in reverse. A last line without
a line feed is a line unless it is empty, and keeps its carriage return. -/
def linesAfter (line : List Char) : List Char → List (List Char)
  | [] => if line.isEmpty then [] else [line.reverse]
  | '\n' :: text => endLine line :: linesAfter [] text
  | c :: text => linesAfter (c :: line) text

/-- The lines of a text, without their endings. -/
def lines (text : List Char) : List (List Char) :=
  linesAfter [] text

/-- The first line that holds more than white space. -/
def firstWritten? (text : List Char) : Option (List Char) :=
  (lines text).find? isWritten

end CompilerWrapper.Text
