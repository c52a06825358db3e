import CompilerWrapper.Toml.Quoted

/-!
# TOML dates and times

A moment is a date, a time of day, or both, in digits of fixed width; a date with a time may carry
an offset. The seconds may be left out, and a fraction of a second needs them. Days are checked
against the calendar, and a second may be the sixtieth, for leap seconds.
-/

namespace CompilerWrapper.Toml

/-- A number of exactly two digits. -/
def twoDigits : Reader Nat
  | a :: b :: text => do pure ((← digit? 10 a) * 10 + (← digit? 10 b), text)
  | _ => none

/-- A number of exactly four digits. -/
def fourDigits (text : List Char) : Option (Nat × List Char) := do
  let (high, text) ← twoDigits text
  let (low, text) ← twoDigits text
  pure (high * 100 + low, text)

/-- The text after a given character. -/
def skipChar (mark : Char) : List Char → Option (List Char)
  | c :: text => if c = mark then some text else none
  | [] => none

/-- The number of days of a month. -/
def daysIn (year month : Nat) : Nat :=
  if month = 2 then
    if year % 4 = 0 ∧ (year % 100 ≠ 0 ∨ year % 400 = 0) then 29 else 28
  else if month ∈ [4, 6, 9, 11] then 30 else 31

/-- The text after a date of the calendar. -/
def date? (text : List Char) : Option (List Char) := do
  let (year, text) ← fourDigits text
  let text ← skipChar '-' text
  let (month, text) ← twoDigits text
  let text ← skipChar '-' text
  let (day, text) ← twoDigits text
  if 1 ≤ month ∧ month ≤ 12 ∧ 1 ≤ day ∧ day ≤ daysIn year month then some text else none

/-- The text after an hour and a minute. -/
def hourMinute? (text : List Char) : Option (List Char) := do
  let (hour, text) ← twoDigits text
  let text ← skipChar ':' text
  let (minute, text) ← twoDigits text
  if hour ≤ 23 ∧ minute ≤ 59 then some text else none

/-- The text after the fraction of a second, if there is one. -/
def fraction? : List Char → Option (List Char)
  | '.' :: text =>
    let rest := text.dropWhile Char.isDigit
    if rest.length < text.length then some rest else none
  | text => some text

/-- The text after a time of day. -/
def time? (text : List Char) : Option (List Char) := do
  let text ← hourMinute? text
  match skipChar ':' text with
  | none => some text
  | some text =>
    let (second, text) ← twoDigits text
    if second ≤ 60 then fraction? text else none

/-- Whether the text is an offset: a `Z`, or a sign, an hour and a minute. -/
def isOffset : List Char → Bool
  | ['Z'] | ['z'] => true
  | '+' :: text | '-' :: text => hourMinute? text = some []
  | _ => false

/-- Whether the word is a date, a time of day, or a date and a time, apart by a `T` or a space. -/
def isMoment (word : List Char) : Bool :=
  match date? word with
  | none => time? word = some []
  | some [] => true
  | some (mark :: text) =>
    (mark == 'T' || mark == 't' || mark == ' ') &&
      match time? text with
      | none => false
      | some rest => rest.isEmpty || isOffset rest

end CompilerWrapper.Toml
