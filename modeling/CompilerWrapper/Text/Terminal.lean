import CompilerWrapper.Text.Search
import CompilerWrapper.Text.Utf8

/-!
# Text for a terminal

A style is switched on by a control sequence and off by another. Where no colours are wanted,
`strip` takes control sequences and control characters out of a text that may come from anywhere.
It looks at bytes, as a terminal does: the byte that ends a string for the device may also be a
byte within a character.
-/

namespace CompilerWrapper.Text

/-- A way in which text can stand out. -/
inductive Style where
  | bold | dimmed | yellow
deriving DecidableEq, Repr

/-- The number of a style in a control sequence. -/
def Style.code : Style → String
  | bold => "1"
  | dimmed => "2"
  | yellow => "33"

/-- The control sequence that switches a style on. -/
def Style.on (s : Style) : String := "\x1b[" ++ s.code ++ "m"

/-- The control sequence that switches all styles off. -/
def styleOff : String := "\x1b[0m"

/-- The text with `s.on` after every control sequence in it that switches styles off; `fuel` bounds
their number. -/
def reopen (s : Style) : (fuel : Nat) → List Char → List Char
  | 0, text => text
  | fuel + 1, text =>
    match splitFirst? styleOff.toList text with
    | none => text
    | some (before, after) =>
      before ++ styleOff.toList ++ s.on.toList ++ reopen s fuel after

/-- The text in a style, which holds up to the end of the text. -/
def paint (s : Style) (text : String) : String :=
  s.on ++ String.ofList (reopen s text.length text.toList) ++ styleOff

/-- Where a terminal stands in a control sequence. -/
inductive Control where
  /-- In plain text. -/
  | text
  /-- Behind an escape character. -/
  | escape
  /-- Behind an escape character and further marks that only a last byte completes. -/
  | intermediate
  /-- In a sequence of parameters. -/
  | sequence
  /-- In a string that a bell ends. -/
  | title
  /-- Before a string for the device. -/
  | device
  /-- In the parameters before a string for the device. -/
  | deviceParameters
  /-- In the marks before a string for the device. -/
  | deviceMarks
  /-- In a string that the byte `stringEnd` ends. -/
  | data
deriving DecidableEq, Repr

/-- The byte that begins a control sequence. -/
def escapeByte : UInt8 := 0x1B

/-- The byte that ends a string for the device. -/
def stringEnd : UInt8 := 0x9C

/-- The bytes that move on to another column or line. -/
def isLayout (b : UInt8) : Bool := b == 0x09 || b == 0x0A || b == 0x0C || b == 0x0D

/-- Whether a byte lies between two others. -/
def isBetween (low high b : UInt8) : Bool := low ≤ b && b ≤ high

/-- The state after a byte behind an escape character. -/
def Control.afterEscape (b : UInt8) : Control :=
  if b = 0x5B then .sequence
  else if b = 0x5D then .title
  else if b = 0x50 then .device
  else if b ∈ [0x58, 0x5E, 0x5F] then .data
  else if isBetween 0x20 0x2F b then .intermediate
  else if isBetween 0x30 0x7E b then .text
  else .escape

/-- The state after a byte that is not shown. A byte that means nothing in a state leaves it as
it is. -/
def Control.after (state : Control) (b : UInt8) : Control :=
  if b = escapeByte then .escape
  else if b = 0x18 ∨ b = 0x1A then .text
  else match state with
    | .text => .text
    | .escape => .afterEscape b
    | .intermediate => if isBetween 0x30 0x7E b then .text else .intermediate
    | .sequence => if isBetween 0x40 0x7E b then .text else .sequence
    | .title => if b = 0x07 then .text else .title
    | .device =>
      if isBetween 0x20 0x2F b then .deviceMarks
      else if isBetween 0x30 0x3F b then .deviceParameters
      else if isBetween 0x40 0x7E b then .data
      else .device
    | .deviceParameters =>
      if isBetween 0x20 0x2F b then .deviceMarks
      else if isBetween 0x3C 0x7E b then .data
      else .deviceParameters
    | .deviceMarks => if isBetween 0x30 0x7E b then .data else .deviceMarks
    | .data => if b = stringEnd then .text else .data

/-- How many bytes of a character follow its first one. -/
def bytesAfter (b : UInt8) : Nat :=
  if isBetween 0xC2 0xDF b then 1
  else if isBetween 0xE0 0xEF b then 2
  else if isBetween 0xF0 0xF4 b then 3
  else 0

/-- Whether a byte begins something that is shown. -/
def Control.shows (state : Control) (b : UInt8) : Bool :=
  match state with
  | .text => isLayout b || isBetween 0x20 0x7E b || bytesAfter b != 0
  | .escape | .intermediate | .sequence => isLayout b
  | _ => false

/-- A terminal that is fed a text. -/
structure Screen where
  /-- Where it stands in a control sequence. -/
  control : Control
  /-- Whether plain text is shown. A line that ends within a control sequence interrupts it: plain
  text is shown up to the next control character, and the sequence goes on there unless a
  character of several bytes has been shown. -/
  plain : Bool
  /-- How many bytes of a character are still to come. -/
  missing : Nat
deriving DecidableEq, Repr

/-- Whether the next byte is shown, and the terminal after it. -/
def Screen.step (s : Screen) (b : UInt8) : Bool × Screen :=
  match s.missing with
  | 1 => (true, ⟨.text, true, 0⟩)
  | n + 1 => (true, { s with missing := n })
  | 0 =>
    if (if s.plain then Control.text else s.control).shows b then
      (true, ⟨s.control, true, bytesAfter b⟩)
    else (false, ⟨s.control.after b, false, 0⟩)

/-- The bytes of a text that are shown. -/
def shown (s : Screen) (text : Bytes) : Bytes :=
  (text.foldl (fun (acc : Bytes × Screen) b =>
    let (visible, next) := acc.2.step b
    (if visible then b :: acc.1 else acc.1, next)) ([], s)).1.reverse

/-- The text without control sequences and without the control characters that are no layout. -/
def strip (text : Bytes) : Bytes := shown ⟨.text, false, 0⟩ text

end CompilerWrapper.Text
