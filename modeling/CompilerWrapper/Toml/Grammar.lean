import CompilerWrapper.Toml.Moment
import CompilerWrapper.Toml.Number

/-!
# Keys, values and lines of TOML

A document is read as a list of statements: headers, which open a table, and assignments, which
give a key what is written behind it. What the statements mean together is decided elsewhere.

Brackets and braces nest at most 80 deep. The bound on nesting is also what the recursion on what
is written runs on.
-/

namespace CompilerWrapper.Toml

/-- How deep brackets and braces may nest, and how many parts a key may have. -/
def depthLimit : Nat := 80

/-! ### Keys -/

/-- A dotted key: the tables on the way, outermost first, and the last part. -/
structure KeyPath where
  way : List String
  last : String
deriving DecidableEq, Repr

/-- The characters of a key without quotation marks. -/
def isKeyChar (c : Char) : Bool := c.isAlphanum || c == '_' || c == '-'

/-- One part of a key. -/
def keyPart (text : List Char) : Option (String × List Char) :=
  match text.takeWhile isKeyChar with
  | [] => (oneLineString text).map fun (part, rest) => (String.ofList part, rest)
  | part => some (String.ofList part, text.dropWhile isKeyChar)

/-- The parts of a key, apart by dots and spaces, and the text after the spaces that follow it;
`way` holds in reverse the parts before. Every part uses up one unit of `fuel`. -/
def keyAfter (way : List String) : (fuel : Nat) → Reader KeyPath
  | 0, _ => none
  | fuel + 1, text => do
    let (part, rest) ← keyPart text
    match skipSpaces rest with
    | '.' :: rest => keyAfter (part :: way) fuel (skipSpaces rest)
    | rest => some (⟨way.reverse, part⟩, rest)

/-- A key, and the text after the spaces that follow it. -/
def key (text : List Char) : Option (KeyPath × List Char) := keyAfter [] (text.length + 1) text

/-! ### Values -/

/-- What is written as a value. -/
inductive Term where
  /-- Something that is neither in brackets nor in braces. -/
  | plain (value : Value)
  | array (items : List Term)
  /-- The assignments between braces. -/
  | braces (assignments : List (KeyPath × Term))

/-- The characters that end a word. -/
def endsWord (c : Char) : Bool := isSpace c || "\r\n,]\x7d#".toList.contains c

/-- What a word without quotation marks means. -/
def bareValue? (word : List Char) : Option Value :=
  if word = "true".toList then some (.boolean true)
  else if word = "false".toList then some (.boolean false)
  else match integer? word with
    | some n => some (.integer n)
    | none => match float? word with
      | some x => some (.float x)
      | none => if isMoment word then some (.moment (String.ofList word)) else none

/-- Cuts a word off the front of the text. A date followed by one space and a digit goes on with
the time. -/
def cutWord (text : List Char) : List Char × List Char :=
  let word := text.takeWhile fun c => !endsWord c
  let rest := text.dropWhile fun c => !endsWord c
  match rest with
  | ' ' :: c :: _ =>
    if date? word = some [] ∧ c.isDigit then
      let time := rest.tail.takeWhile fun c => !endsWord c
      (word ++ ' ' :: time, rest.tail.drop time.length)
    else (word, rest)
  | _ => (word, rest)

/-- Something that is neither in brackets nor in braces. -/
def plainTerm (text : List Char) : Option (Term × List Char) :=
  if text.head? = some '"' ∨ text.head? = some '\'' then
    (quotedString text).map fun (string, rest) => (.plain (.string (String.ofList string)), rest)
  else
    let (word, rest) := cutWord text
    (bareValue? word).map (.plain ·, rest)

/-- The items of an array, up to its bracket; `done` holds in reverse what was read. Every item
uses up one unit of `fuel`. -/
def arrayItems (term : Reader Term) (done : List Term) : (fuel : Nat) → Reader Term
  | 0, _ => none
  | fuel + 1, text => do
    match ← skipGap false text with
    | ']' :: rest => some (.array done.reverse, rest)
    | text =>
      let (item, rest) ← term text
      match ← skipGap false rest with
      | ',' :: rest => arrayItems term (item :: done) fuel rest
      | ']' :: rest => some (.array (done.reverse ++ [item]), rest)
      | _ => none

/-- The assignments between braces, up to the closing one; `done` holds in reverse what was read.
Spaces, line ends and comments may stand anywhere between the parts. Every assignment uses up one
unit of `fuel`. -/
def bracedAssignments (term : Reader Term) (done : List (KeyPath × Term)) :
    (fuel : Nat) → Reader Term
  | 0, _ => none
  | fuel + 1, text => do
    match ← skipGap false text with
    | '\x7d' :: rest => some (.braces done.reverse, rest)
    | text =>
      let (key, rest) ← key text
      match ← skipGap false rest with
      | '=' :: rest =>
        let (item, rest) ← term (← skipGap false rest)
        let done := (key, item) :: done
        match ← skipGap false rest with
        | ',' :: rest => bracedAssignments term done fuel rest
        | '\x7d' :: rest => some (.braces done.reverse, rest)
        | _ => none
      | _ => none

/-- What is written as a value and nests at most `depth` deep. An item takes at least one
character, so the length of the text bounds the number of items. -/
def term : (depth : Nat) → Reader Term
  | 0, text =>
    if text.head? = some '[' ∨ text.head? = some '\x7b' then none else plainTerm text
  | depth + 1, text =>
    match text with
    | '[' :: rest => arrayItems (term depth) [] (rest.length + 1) rest
    | '\x7b' :: rest => bracedAssignments (term depth) [] (rest.length + 1) rest
    | text => plainTerm text

/-! ### Statements -/

/-- One statement of a document. -/
inductive Statement where
  /-- A header in single brackets, or in double ones if `many`. -/
  | header (many : Bool) (key : KeyPath)
  | assignment (key : KeyPath) (term : Term)

/-- A header whose opening brackets have been taken off. -/
def header (many : Bool) (text : List Char) : Option (Statement × List Char) := do
  let (key, rest) ← key (skipSpaces text)
  match many, rest with
  | false, ']' :: rest => some (.header false key, rest)
  | true, ']' :: ']' :: rest => some (.header true key, rest)
  | _, _ => none

/-- A key, an equals sign and a value. -/
def assignment (text : List Char) : Option (Statement × List Char) := do
  let (key, rest) ← key text
  match rest with
  | '=' :: rest =>
    let (term, rest) ← term depthLimit (skipSpaces rest)
    some (.assignment key term, rest)
  | _ => none

/-- A header or an assignment. -/
def statement : Reader Statement
  | '[' :: '[' :: text => header true text
  | '[' :: text => header false text
  | text => assignment text

/-- The statements of a document, a line each; `done` holds in reverse what was read. Every
statement uses up one unit of `fuel`. -/
def statementsAfter (done : List Statement) : (fuel : Nat) → List Char → Option (List Statement)
  | 0, _ => none
  | fuel + 1, text => do
    match ← skipGap false text with
    | [] => some done.reverse
    | text =>
      let (s, rest) ← statement text
      statementsAfter (s :: done) fuel (← finishLine false rest)

/-- The statements of a document. A statement takes at least one character, so the length of the
text bounds their number. A byte order mark at the start is passed over. -/
def statements? (text : List Char) : Option (List Statement) :=
  match text with
  | '\uFEFF' :: text => statementsAfter [] (text.length + 1) text
  | text => statementsAfter [] (text.length + 1) text

end CompilerWrapper.Toml
