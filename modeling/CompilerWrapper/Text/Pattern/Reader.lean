import CompilerWrapper.Text.Pattern.Basic
import CompilerWrapper.Text.Pattern.Flaw
import CompilerWrapper.Text.Utf8

/-!
# Written patterns

Most characters of a written pattern stand for themselves. A dot is any character of a line, `^`
and `$` are the ends of the text, brackets hold a set of characters, `|` is a choice, and `*`, `+`,
`?` and a count between braces repeat what is before them. Parentheses make a group; a question
mark behind the opening one begins a name or flags, which hold up to the end of the group. A
backslash takes the meaning from a character or gives it one.

The pattern is read from the left, and the first flaw ends the reading.
-/

namespace CompilerWrapper.Text

namespace Pattern

/-- The flags that hold at a place. -/
structure Switches where
  anyCase : Bool := false
  /-- The ends of every line count as ends of the text. -/
  lines : Bool := false
  /-- A dot is also a line feed. -/
  dotAll : Bool := false
  /-- White space and comments mean nothing. -/
  spaced : Bool := false

/-- A set, in which case does not count if the flags say so. -/
def Switches.set (sw : Switches) (s : CharSet) : CharSet := if sw.anyCase then .anyCase s else s

/-- Drops white space and comments, which go from a number sign to the end of the line. -/
def dropSpace : (comment : Bool) → List Char → List Char
  | _, [] => []
  | true, c :: text => dropSpace (c != '\n') text
  | false, c :: text =>
    if isBlank c then dropSpace false text
    else if c = '#' then dropSpace true text
    else c :: text

/-- A place in a written pattern: its column, the characters from there on, and the flags. -/
structure Cursor where
  column : Nat
  rest : List Char
  switches : Switches

namespace Cursor

/-- The place some characters further on. -/
def skip (c : Cursor) (n : Nat) : Cursor :=
  { c with column := c.column + min n c.rest.length, rest := c.rest.drop n }

/-- The place after the characters that satisfy `p`. -/
def skipWhile (c : Cursor) (p : Char → Bool) : Cursor := c.skip (c.rest.takeWhile p).length

/-- The place after what means nothing. -/
def skipSpace (c : Cursor) : Cursor :=
  if c.switches.spaced then c.skip (c.rest.length - (dropSpace false c.rest).length) else c

/-- The place after the next character and what means nothing behind it. -/
def next (c : Cursor) : Cursor := (c.skip 1).skipSpace

/-- Whether the pattern goes on with a text. -/
def begins (c : Cursor) (text : String) : Bool := text.toList.isPrefixOf c.rest

/-- Whether the next character is the given one. -/
def sees (c : Cursor) (mark : Char) : Bool := c.rest.head? = some mark

/-- The place after a question mark, if there is one: which of several pieces is found first does
not matter. -/
def skipLazy (c : Cursor) : Cursor := if c.sees '?' then c.skip 1 else c

/-- The characters up to a place further on. -/
def upTo (c stop : Cursor) : List Char := c.rest.take (stop.column - c.column)

end Cursor

/-- Reading, which a flaw may end. -/
abbrev Reading := Except PatternFlaw

/-- Ends the reading with a flaw in a stretch. -/
def flawed {α : Type} (complaint : Complaint) (first after : Nat) : Reading α :=
  .error (.misread complaint ⟨first, after⟩ none)

/-! ### Counts -/

/-- The largest count. -/
def countLimit : Nat := Nat.pow 2 32 - 1

/-- A decimal number with white space around it, and the place behind. -/
def readDecimal (c : Cursor) : Reading Nat × Cursor :=
  let start := c.skipWhile isBlank
  let stop := start.skipWhile Char.isDigit
  let digits := start.upTo stop
  let n := digits.foldl (fun n d => n * 10 + (d.toNat - '0'.toNat)) 0
  (if digits = [] then flawed .countEmpty start.column stop.column
    else if countLimit < n then flawed .countTooLarge start.column stop.column
    else .ok n, stop.skipWhile isBlank)

/-- What a count between braces says, and the place behind it; the cursor is at the opening
brace. -/
def readCount (c : Cursor) : Reading ((Nat × Option Nat) × Cursor) := do
  let unclosed (stop : Cursor) {α : Type} : Reading α :=
    flawed .countUnclosed c.column stop.column
  let inside := c.next
  if inside.rest = [] then unclosed inside
  let (low, next) := readDecimal inside
  if next.rest = [] then unclosed next
  let (low, high, next) ← if next.sees ',' then do
      let next := next.next
      if next.rest = [] then unclosed next
      let low ← low
      if next.sees '\x7d' then pure (low, none, next)
      else
        let (high, next) := readDecimal next
        pure (low, some (← high), next)
    else do
      let low ← low
      pure (low, some low, next)
  if !next.sees '\x7d' then unclosed next
  let stop := next.next.skipLazy
  match high with
  | some n => if n < low then flawed .countReversed c.column stop.column else pure ((low, high), stop)
  | none => pure ((low, high), stop)

/-! ### Escapes -/

/-- What an escape stands for. -/
inductive Escaped where
  | literal (c : Char)
  | set (s : CharSet)
  | edge (e : Edge)

/-- The characters that a backslash takes the meaning from: the marks of ASCII but angle
brackets. -/
def isMark (c : Char) : Bool :=
  c.toNat < 0x80 && !c.isAlphanum && c != '<' && c != '>'

/-- The letters that stand for a character that cannot be seen. -/
def controlLetters : List (Char × Char) :=
  [('a', '\x07'), ('f', '\x0c'), ('t', '\t'), ('n', '\n'), ('r', '\r'), ('v', '\x0b')]

/-- The letters that stand for an edge. -/
def edgeLetters : List (Char × Edge) :=
  [('A', .textStart), ('z', .textEnd), ('b', .wordEdge), ('B', .noWordEdge), ('<', .wordStart),
   ('>', .wordEnd)]

/-- The edges of words that have a name. -/
def edgeNames : List (String × Edge) :=
  [("start", .wordStart), ("end", .wordEnd), ("start-half", .noWordBefore),
   ("end-half", .noWordAfter)]

/-- The letters that stand for the characters with a property; capitals stand for the others. -/
def propertyLetters : List (Char × Property) := [('d', .digit), ('s', .blank), ('w', .word)]

/-- The value of a hexadecimal digit. -/
def hexValue? (c : Char) : Option Nat :=
  if c.isDigit then some (c.toNat - '0'.toNat)
  else if 'a' ≤ c.toLower ∧ c.toLower ≤ 'f' then some (c.toLower.toNat - 'a'.toNat + 10)
  else none

/-- The character whose number is written in hexadecimal digits in a stretch. -/
def charAt (digits : List Char) (first after : Nat) : Reading Char :=
  let n := digits.foldl (fun n d => n * 16 + (hexValue? d).getD 0) 0
  if n.isValidChar then .ok (Char.ofNat n)
  else flawed .hexNoCharacter first after

/-- A number in a fixed number of digits. -/
def readDigits (width : Nat) (c : Cursor) : Reading (Char × Cursor) :=
  let digits := (c.rest.take width).takeWhile fun d => (hexValue? d).isSome
  let stop := c.skip digits.length
  if digits.length = width then do
    pure (← charAt digits c.column stop.column, stop)
  else if stop.rest = [] then flawed .escapeCut stop.column stop.column
  else flawed .hexDigit stop.column (stop.column + 1)

/-- A number between braces; the cursor is at the opening brace. -/
def readBraced (c : Cursor) : Reading (Char × Cursor) :=
  let inside := c.skip 1
  let stop := inside.skipWhile fun d => (hexValue? d).isSome
  let digits := inside.upTo stop
  if stop.rest = [] then flawed .escapeCut c.column stop.column
  else if !stop.sees '\x7d' then flawed .hexDigit stop.column (stop.column + 1)
  else if digits = [] then flawed .hexEmpty c.column (stop.column + 1)
  else do pure (← charAt digits inside.column stop.column, stop.skip 1)

/-- A character given by its number; the cursor is behind the letter. -/
def readNumber (width : Nat) (c : Cursor) : Reading (Char × Cursor) :=
  if c.rest = [] then flawed .escapeCut c.column c.column
  else if c.sees '\x7b' then readBraced c
  else readDigits width c

/-- The width of a number without braces behind the letters that begin one. -/
def numberLetters : List (Char × Nat) := [('x', 2), ('u', 4), ('U', 8)]

/-- A property of characters by its name; the cursor is behind the letter, and `start` is the column
of the backslash. No name is known. -/
def readProperty (start : Nat) (c : Cursor) : Reading (CharSet × Cursor) :=
  if c.rest = [] then flawed .escapeCut c.column c.column
  else if c.sees '\x7b' then
    let stop := c.skipWhile (· != '\x7d')
    if stop.rest = [] then flawed .escapeCut stop.column stop.column
    else flawed .propertyUnknown start (stop.column + 1)
  else if c.sees '\\' then flawed .propertyMalformed c.column (c.column + 1)
  else flawed .propertyUnknown start (c.column + 1)

/-- The edge of a word with its name; the cursor is at the opening brace, and `start` is the column
of the backslash. A count may stand there as well. -/
def readEdgeName (start : Nat) (c : Cursor) : Reading (Edge × Cursor) :=
  let inside := c.next
  let stop := inside.skipWhile fun d => d.isAlpha || d == '-'
  if inside.rest = [] then flawed .boundaryCut start inside.column
  else if stop.column = inside.column then .ok (.wordEdge, c)
  else if !stop.sees '\x7d' then flawed .boundaryUnclosed c.column stop.column
  else match edgeNames.lookup (String.ofList (inside.upTo stop)) with
    | some e => .ok (e, stop.skip 1)
    | none => flawed .boundaryUnknown inside.column stop.column

/-- Reads an escape; the cursor is at the backslash. -/
def readEscape (c : Cursor) : Reading (Escaped × Cursor) :=
  let behind := c.skip 2
  match c.rest.tail.head? with
  | none => flawed .escapeCut c.column (c.column + 1)
  | some letter =>
    if letter.isDigit then flawed .backreference c.column behind.column
    else if letter = 'p' ∨ letter = 'P' then
      (readProperty c.column behind).map fun (s, c) => (.set s, c)
    else if letter = 'b' ∧ behind.sees '\x7b' then
      (readEdgeName c.column behind).map fun (e, c) => (.edge e, c)
    else if isMark letter then .ok (.literal letter, behind)
    else match numberLetters.lookup letter, propertyLetters.lookup letter.toLower,
        controlLetters.lookup letter, edgeLetters.lookup letter with
      | some width, _, _, _ => (readNumber width behind).map fun (d, c) => (.literal d, c)
      | _, some p, _, _ =>
        let s := CharSet.property p
        .ok (.set (if letter.isUpper then s.other else s), behind)
      | _, _, some d, _ => .ok (.literal d, behind)
      | _, _, _, some e => .ok (.edge e, behind)
      | _, _, _, _ => flawed .escapeUnknown c.column behind.column

/-! ### Sets of characters -/

/-- The sets of ASCII characters that have a name. -/
def namedSet? (name : String) : Option CharSet :=
  let digit := CharSet.range '0' '9'
  let lower := CharSet.range 'a' 'z'
  let upper := CharSet.range 'A' 'Z'
  let letter := lower.either upper
  let shown := CharSet.range '!' '~'
  match name with
  | "alnum" => some (letter.either digit)
  | "alpha" => some letter
  | "ascii" => some (.range '\x00' '\x7f')
  | "blank" => some (.ofText " \t")
  | "cntrl" => some ((CharSet.range '\x00' '\x1f').either (.only '\x7f'))
  | "digit" => some digit
  | "graph" => some shown
  | "lower" => some lower
  | "print" => some (.range ' ' '~')
  | "punct" => some (shown.without (letter.either digit))
  | "space" => some (.ofText " \t\n\x0b\x0c\r")
  | "upper" => some upper
  | "word" => some ((letter.either digit).either (.only '_'))
  | "xdigit" => some ((digit.either (.range 'a' 'f')).either (.range 'A' 'F'))
  | _ => none

/-- A set with a name between colons within brackets, and the place behind it; the cursor is at
the inner bracket. -/
def readNamedSet? (c : Cursor) : Option (CharSet × Cursor) :=
  if !c.begins "[:" then none
  else
    let negated := c.begins "[:^"
    let inside := c.skip (if negated then 3 else 2)
    let stop := inside.skipWhile (· != ':')
    if !stop.begins ":]" then none
    else (namedSet? (String.ofList (inside.upTo stop))).map fun s =>
      let s := c.switches.set s
      (if negated then s.other else s, stop.skip 2)

/-- An item between brackets, with its stretch, and the place behind it. -/
def readItem (c : Cursor) : Reading ((Escaped × Stretch) × Cursor) :=
  match c.rest with
  | '\\' :: _ => (readEscape c).map fun (e, next) => ((e, ⟨c.column, next.column⟩), next)
  | d :: _ => .ok ((.literal d, ⟨c.column, c.column + 1⟩), c.skip 1)
  | [] => flawed .classUnclosed c.column c.column

/-- An item that is the end of a range. -/
def rangeEnd : Escaped × Stretch → Reading Char
  | (.literal c, _) => .ok c
  | (_, place) => flawed .classRangeEnd place.first place.after

/-- An item or a range of characters between brackets; `opened` is the stretch that opened
them. -/
def readRange (opened : Stretch) (c : Cursor) : Reading (CharSet × Cursor) := do
  let unclosed {α : Type} : Reading α := flawed .classUnclosed opened.first opened.after
  let (first, next) ← readItem c
  let next := next.skipSpace
  if next.rest = [] then unclosed
  if !next.sees '-' ∨ next.next.sees ']' ∨ next.next.sees '-' then
    match first with
    | (.literal d, _) => pure (c.switches.set (.only d), next)
    | (.set s, _) => pure (s, next)
    | (.edge _, place) => flawed .classEscape place.first place.after
  else
    let next := next.next
    if next.rest = [] then unclosed
    let (second, next) ← readItem next
    let low ← rangeEnd first
    let high ← rangeEnd second
    if high < low then flawed .classRange first.2.first second.2.after
    else pure (c.switches.set (.range low high), next)

/-- How two sets between brackets are put together. -/
def operation? (c : Cursor) : Option (CharSet → CharSet → CharSet) :=
  if c.begins "&&" then some .both
  else if c.begins "--" then some .without
  else if c.begins "~~" then some .unlike
  else none

/-- The place after the hyphens at the beginning of a set. Every one uses up one unit of `fuel`. -/
def skipHyphens : (fuel : Nat) → Cursor → Cursor
  | 0, c => c
  | fuel + 1, c => if c.sees '-' then skipHyphens fuel c.next else c

/-- The opening of a set: whether it is negated, the marks at its beginning that stand for
themselves, and the place behind them. -/
def openSet (c : Cursor) : Reading ((Bool × CharSet) × Cursor) := do
  let inside := c.next
  if inside.rest = [] then flawed .classUnclosed c.column inside.column
  let negated := inside.sees '^'
  let inside := if negated then inside.next else inside
  if inside.rest = [] then flawed .classUnclosed c.column inside.column
  if inside.sees '-' then
    let next := skipHyphens inside.rest.length inside
    if next.rest = [] then flawed .classUnclosed c.column c.column
    pure ((negated, .only '-'), next)
  else if inside.sees ']' then
    let next := inside.next
    if next.rest = [] then flawed .classUnclosed c.column next.column
    pure ((negated, .only ']'), next)
  else pure ((negated, .none), inside)

mutual

/-- A set between brackets; the cursor is at the opening one. Every set and every item uses up one
unit of `fuel`. -/
def readSet : (fuel : Nat) → Cursor → Reading (CharSet × Cursor)
  | 0, c => flawed .classUnclosed c.column c.column
  | fuel + 1, c => do
    let ((negated, initial), next) ← openSet c
    let (items, next) ← readItems ⟨c.column, next.column⟩ id initial fuel next
    pure (if negated then items.other else items, next)

/-- The items of a set up to its closing bracket. `before` puts the items in front of the last
operation together with those that are being read. -/
def readItems (opened : Stretch) (before : CharSet → CharSet) (items : CharSet) :
    (fuel : Nat) → Cursor → Reading (CharSet × Cursor)
  | 0, _ => flawed .classUnclosed opened.first opened.after
  | fuel + 1, c =>
    let c := c.skipSpace
    match operation? c with
    | some combine => readItems opened (combine (before items)) .none fuel (c.skip 2)
    | none =>
      match c.rest with
      | [] => flawed .classUnclosed opened.first opened.after
      | ']' :: _ => .ok (before items, c.skip 1)
      | '[' :: _ => do
        let (inner, next) ← match readNamedSet? c with
          | some named => pure named
          | none => readSet fuel c
        readItems opened before (items.either inner) fuel next
      | _ => do
        let (range, next) ← readRange opened c
        readItems opened before (items.either range) fuel next

end

/-! ### Groups -/

/-- The flags of a group up to the colon or parenthesis behind them, which are then the switches of
the cursor, with the stretches of those that have been read, last first. `on` says whether they are
switched on. Every flag uses up one unit of `fuel`. -/
def readFlags (on : Bool) (done : List (Char × Stretch)) :
    (fuel : Nat) → Cursor → Reading (List (Char × Stretch) × Cursor)
  | 0, c => flawed .flagCut c.column c.column
  | fuel + 1, c =>
    match c.rest with
    | [] => flawed .flagCut c.column c.column
    | flag :: _ =>
      let place : Stretch := ⟨c.column, c.column + 1⟩
      if flag = ':' ∨ flag = ')' then
        match done with
        | ('-', place) :: _ => flawed .flagNothingNegated place.first place.after
        | _ => .ok (done, c)
      else if flag ∉ "-imsUuRx".toList then flawed .flagUnknown place.first place.after
      else match done.lookup flag with
        | some earlier =>
          .error (.misread (if flag = '-' then .flagNegatedTwice else .flagTwice) place
            (some earlier))
        | none =>
          let sw := c.switches
          let sw := match flag with
            | 'i' => { sw with anyCase := on }
            | 'm' => { sw with lines := on }
            | 's' => { sw with dotAll := on }
            | 'x' => { sw with spaced := on }
            | _ => sw
          readFlags (on && flag != '-') ((flag, place) :: done) fuel
            { c.skip 1 with switches := sw }

/-- Whether a character may stand in the name of a group. -/
def isNameChar (first : Bool) (c : Char) : Bool :=
  c == '_' || (Property.word.holds c && !(first && Property.digit.holds c)) ||
    (!first && (c == '.' || c == '[' || c == ']'))

/-- The name of a group, and the place behind the bracket that ends it. -/
def readName (c : Cursor) : Reading (List Char × Cursor) :=
  let stop := match c.rest with
    | d :: _ => if isNameChar true d then (c.skip 1).skipWhile (isNameChar false) else c
    | [] => c
  if stop.rest = [] then flawed .nameCut stop.column stop.column
  else if !stop.sees '>' then flawed .nameCharacter stop.column (stop.column + 1)
  else if stop.column = c.column then flawed .nameEmpty c.column c.column
  else .ok (c.upTo stop, stop.skip 1)

/-- What an opening parenthesis begins. -/
inductive Opening where
  | group
  /-- A group with a name. -/
  | named (name : List Char) (place : Stretch)
  /-- Flags for the rest of the group around it. -/
  | flags

/-- Reads the beginning of a group; the cursor is at the opening parenthesis. The switches of the
cursor behind it are those that hold from there on. -/
def readOpening (c : Cursor) : Reading (Opening × Cursor) :=
  let inside := c.next
  match ["?=", "?!", "?<=", "?<!"].find? fun text => inside.begins text with
  | some text => flawed .lookAround c.column (inside.column + text.length)
  | none =>
    match ["?P<", "?<"].find? fun text => inside.begins text with
    | some text => do
      let start := inside.skip text.length
      let (name, next) ← readName start
      pure (.named name ⟨start.column, start.column + name.length⟩, next)
    | none =>
      if !inside.sees '?' then .ok (.group, inside)
      else
        let start := inside.skip 1
        if start.rest = [] then flawed .groupUnclosed c.column (c.column + 1)
        else do
          let (done, stop) ← readFlags true [] (start.rest.length + 1) start
          if stop.sees ':' then pure (.group, stop.skip 1)
          else if done = [] then flawed .nothingToRepeat inside.column inside.column
          else pure (.flags, stop.skip 1)

/-! ### Patterns -/

/-- What has been read of a group: the choices before the last `|`, and the parts behind it, both
last first. Flags are a part that cannot be repeated. -/
structure Partial where
  choices : List Pattern := []
  parts : List (Option Pattern) := []

namespace Partial

/-- The parts behind the last `|` as a pattern. -/
def last (p : Partial) : Pattern := all (p.parts.reverse.filterMap id)

/-- What has been read as a pattern. -/
def pattern (p : Partial) : Pattern := p.choices.foldl (fun later c => .either c later) p.last

/-- One part more. -/
def add (p : Partial) (part : Option Pattern) : Partial := { p with parts := part :: p.parts }

/-- The last part, changed; the column is that of the mark that asks for it. -/
def change (p : Partial) (column : Nat) (f : Pattern → Pattern) : Reading Partial :=
  match p.parts with
  | some part :: parts => .ok { p with parts := some (f part) :: parts }
  | _ => flawed .nothingToRepeat column column

end Partial

/-- How a mark repeats what is before it. -/
def repetition? : Char → Option (Pattern → Pattern)
  | '*' => some fun p => .times p 0 none
  | '+' => some fun p => .times p 1 none
  | '?' => some fun p => .times p 0 (some 1)
  | _ => none

/-- The pattern of an escape. -/
def Escaped.pattern (sw : Switches) : Escaped → Pattern
  | .literal c => .set (sw.set (.only c))
  | .set s => .set s
  | .edge e => .edge e

/-- The pattern of one character that is no mark of repetition or grouping. -/
def ofChar (sw : Switches) : Char → Pattern
  | '.' => .set (if sw.dotAll then CharSet.none.other else (CharSet.only '\n').other)
  | '^' => .edge (if sw.lines then .lineStart else .textStart)
  | '$' => .edge (if sw.lines then .lineEnd else .textEnd)
  | c => .set (sw.set (.only c))

/-- Reads a group up to its closing parenthesis, which the whole pattern does not have; `opened`
is the column of the opening one, `names` are the names of groups before. Every part and every
group uses up one unit of `fuel`. -/
def readGroup (opened : Option Nat) (names : List (List Char × Stretch)) (done : Partial) :
    (fuel : Nat) → Cursor → Reading ((Pattern × List (List Char × Stretch)) × Cursor)
  | 0, c => flawed .groupUnclosed c.column c.column
  | fuel + 1, c =>
    let c := c.skipSpace
    match c.rest with
    | [] =>
      match opened with
      | some column => flawed .groupUnclosed column (column + 1)
      | none => .ok ((done.pattern, names), c)
    | ')' :: _ =>
      match opened with
      | some _ => .ok ((done.pattern, names), c.skip 1)
      | none => flawed .groupUnopened c.column (c.column + 1)
    | '|' :: _ => readGroup opened names ⟨done.last :: done.choices, []⟩ fuel (c.skip 1)
    | '(' :: _ => do
      let group (names : List (List Char × Stretch)) (inside : Cursor) := do
        let ((part, names), next) ← readGroup (some c.column) names {} fuel inside
        readGroup opened names (done.add (some part)) fuel { next with switches := c.switches }
      match ← readOpening c with
      | (.flags, next) => readGroup opened names (done.add none) fuel next
      | (.group, inside) => group names inside
      | (.named name place, inside) =>
        match names.lookup name with
        | some earlier => .error (.misread .nameTwice place (some earlier))
        | none => group ((name, place) :: names) inside
    | '[' :: _ => do
      let (s, next) ← readSet (2 * c.rest.length + 2) c
      readGroup opened names (done.add (some (.set s))) fuel next
    | '\\' :: _ => do
      let (escaped, next) ← readEscape c
      readGroup opened names (done.add (some (escaped.pattern c.switches))) fuel next
    | '\x7b' :: _ => do
      let _ ← done.change c.column id
      let ((low, high), next) ← readCount c
      let done ← done.change c.column fun p => p.times low (high.map (· - low))
      readGroup opened names done fuel next
    | mark :: _ =>
      match repetition? mark with
      | some f => do
        let done ← done.change c.column f
        readGroup opened names done fuel (c.skip 1).skipLazy
      | none => readGroup opened names (done.add (some (ofChar c.switches mark))) fuel (c.skip 1)

/-- The largest weight of a pattern that stays below the size limit. -/
def weightLimit : Nat := 400000

/-- The pattern that a text writes. -/
def read (text : List Char) : Reading Pattern := do
  let ((p, _), _) ← readGroup none [] {} (text.length + 1) ⟨0, text, {}⟩
  if weightLimit < p.weight then .error .tooLarge else pure p

end Pattern

end CompilerWrapper.Text
