/-!
# What is wrong with a written pattern

What cannot be read is shown below the pattern, with a mark under the stretch of the pattern that
cannot. The columns of a pattern count its characters from zero. A pattern that can be read may
still be too large.
-/

namespace CompilerWrapper.Text

/-- A reason for which a written pattern cannot be read. -/
inductive Complaint where
  | backreference
  | boundaryCut
  | boundaryUnclosed
  | boundaryUnknown
  | classEscape
  | classRange
  | classRangeEnd
  | classUnclosed
  | countEmpty
  | countReversed
  | countTooLarge
  | countUnclosed
  | escapeCut
  | escapeUnknown
  | flagCut
  | flagNegatedTwice
  | flagNothingNegated
  | flagTwice
  | flagUnknown
  | groupUnclosed
  | groupUnopened
  | hexDigit
  | hexEmpty
  | hexNoCharacter
  | lookAround
  | nameCharacter
  | nameCut
  | nameEmpty
  | nameTwice
  | nothingToRepeat
  | propertyMalformed
  | propertyUnknown
deriving DecidableEq, Repr

/-- The reason in words. -/
def Complaint.message : Complaint → String
  | backreference => "backreferences are not supported"
  | boundaryCut =>
    "found either the beginning of a special word boundary or a bounded repetition " ++
      "on a \\b with an opening brace, but no closing brace"
  | boundaryUnclosed =>
    "special word boundary assertion is either unclosed or contains an invalid character"
  | boundaryUnknown =>
    "unrecognized special word boundary assertion, valid choices are: " ++
      "start, end, start-half or end-half"
  | classEscape => "invalid escape sequence found in character class"
  | classRange => "invalid character class range, the start must be <= the end"
  | classRangeEnd => "invalid range boundary, must be a literal"
  | classUnclosed => "unclosed character class"
  | countEmpty => "repetition quantifier expects a valid decimal"
  | countReversed => "invalid repetition count range, the start must be <= the end"
  | countTooLarge => "decimal literal invalid"
  | countUnclosed => "unclosed counted repetition"
  | escapeCut => "incomplete escape sequence, reached end of pattern prematurely"
  | escapeUnknown => "unrecognized escape sequence"
  | flagCut => "expected flag but got end of regex"
  | flagNegatedTwice => "flag negation operator repeated"
  | flagNothingNegated => "dangling flag negation operator"
  | flagTwice => "duplicate flag"
  | flagUnknown => "unrecognized flag"
  | groupUnclosed => "unclosed group"
  | groupUnopened => "unopened group"
  | hexDigit => "invalid hexadecimal digit"
  | hexEmpty => "hexadecimal literal empty"
  | hexNoCharacter => "hexadecimal literal is not a Unicode scalar value"
  | lookAround => "look-around, including look-ahead and look-behind, is not supported"
  | nameCharacter => "invalid capture group character"
  | nameCut => "unclosed capture group name"
  | nameEmpty => "empty capture group name"
  | nameTwice => "duplicate capture group name"
  | nothingToRepeat => "repetition operator missing expression"
  | propertyMalformed => "invalid Unicode character class"
  | propertyUnknown => "Unicode property not found"

/-- A stretch of a written pattern: the column of its first character and the one after its
last. -/
structure Stretch where
  first : Nat
  after : Nat
deriving DecidableEq, Repr

/-- The number of bytes that a pattern may take. -/
def sizeLimit : Nat := 10 * Nat.pow 2 20

/-- What is wrong with a written pattern. -/
inductive PatternFlaw where
  /-- A place cannot be read; it may contradict another place, earlier in the pattern. -/
  | misread (complaint : Complaint) (place : Stretch) (earlier : Option Stretch)
  | tooLarge
deriving DecidableEq, Repr

namespace PatternFlaw

/-- The marks under stretches, in order, from a column on. A stretch without characters gets one
mark. -/
def marks (column : Nat) : List Stretch → String
  | [] => ""
  | s :: rest =>
    let width := max 1 (s.after - s.first)
    "".pushn ' ' (s.first - column) ++ "".pushn '^' width ++ marks (max column s.first + width) rest

/-- The flaw as it is told. -/
def report (pattern : List Char) : PatternFlaw → String
  | misread complaint place earlier =>
    "regex parse error:\n    " ++ String.ofList pattern ++ "\n    " ++
      marks 0 (earlier.toList ++ [place]) ++ "\nerror: " ++ complaint.message
  | tooLarge => s!"Compiled regex exceeds size limit of {sizeLimit} bytes."

end PatternFlaw

end CompilerWrapper.Text
