import CompilerWrapper.Text.Property

/-!
# Patterns

A pattern describes texts: characters of given sets, edges between characters, and what can be put
together from them one after the other, by choice and by repetition. `Pattern.occursIn` says
whether any piece of a text is one that the pattern describes.

A search keeps a mark for every place of the text, before its first character, between any two
and after the last. `Pattern.through` takes the marks of the places where a piece may begin to the
marks of the places where it may end.
-/

namespace CompilerWrapper.Text

/-- The forms of a character that count as one where case does not count. Beyond ASCII these are
the Kelvin sign and the long s. -/
def caseForms (c : Char) : List Char :=
  [c, c.toLower, c.toUpper] ++
    if c ∈ ['k', 'K', '\u212A'] then ['k', 'K', '\u212A']
    else if c ∈ ['s', 'S', '\u017F'] then ['s', 'S', '\u017F']
    else []

/-- A set of characters. -/
inductive CharSet where
  | none
  | range (low high : Char)
  /-- The set with the other forms of its characters, as if case did not count. -/
  | anyCase (a : CharSet)
  | property (p : Property)
  | either (a b : CharSet)
  | both (a b : CharSet)
  /-- All characters that are not in the set. -/
  | other (a : CharSet)
deriving DecidableEq, Repr

namespace CharSet

/-- Whether a character is in the set. -/
def has (c : Char) : CharSet → Bool
  | none => false
  | range low high => low ≤ c && c ≤ high
  | anyCase a => (caseForms c).any fun form => has form a
  | property p => p.holds c
  | either a b => has c a || has c b
  | both a b => has c a && has c b
  | other a => !has c a

/-- How large a set is as a part of a pattern: ASCII characters are small, and the sets that go
through all writing systems are large. -/
def weight : CharSet → Nat
  | none => 1
  | range _ high => if high.toNat < 0x80 then 1 else 8
  | anyCase a => a.weight
  | property _ => 400
  | either a b => max a.weight b.weight
  | both a b => max a.weight b.weight
  | other a => a.weight + 8

/-- The characters that are in the first set and not in the second. -/
def without (a b : CharSet) : CharSet := both a (other b)

/-- The characters that are in one of two sets and not in the other. -/
def unlike (a b : CharSet) : CharSet := either (a.without b) (b.without a)

/-- The set of one character. -/
def only (c : Char) : CharSet := range c c

/-- The characters of a text as a set. -/
def ofText (text : String) : CharSet := text.toList.foldl (fun s c => either s (only c)) none

end CharSet

/-- Something that can be asked of the place between two characters. -/
inductive Edge where
  | textStart | textEnd | lineStart | lineEnd
  /-- A character of a word on one side and none on the other. -/
  | wordEdge
  | noWordEdge
  | wordStart | wordEnd
  /-- No character of a word before the place. -/
  | noWordBefore
  /-- No character of a word after the place. -/
  | noWordAfter
deriving DecidableEq, Repr

/-- Whether an edge is at the place between two characters; either may be missing. -/
def Edge.holds (before after : Option Char) : Edge → Bool :=
  let word (c : Option Char) : Bool := c.any Property.word.holds
  fun
  | textStart => before.isNone
  | textEnd => after.isNone
  | lineStart => before.all (· == '\n')
  | lineEnd => after.all (· == '\n')
  | wordEdge => word before != word after
  | noWordEdge => word before == word after
  | wordStart => !word before && word after
  | wordEnd => word before && !word after
  | noWordBefore => !word before
  | noWordAfter => !word after

/-- A description of texts. -/
inductive Pattern where
  /-- The empty text. -/
  | empty
  /-- One character. -/
  | set (s : CharSet)
  /-- The empty text, at an edge. -/
  | edge (e : Edge)
  | seq (a b : Pattern)
  | either (a b : Pattern)
  /-- Texts one after the other: `low` of them, and then any number of others or at most `more`. -/
  | times (a : Pattern) (low : Nat) (more : Option Nat)
deriving DecidableEq, Repr

/-- Whether a search has come to a place, for every place of a text. -/
abbrev Marks := List Bool

/-- The characters before and after every place of a text; `before` is the one before the text. -/
def sides (before : Option Char) : List Char → List (Option Char × Option Char)
  | [] => [(before, none)]
  | c :: text => (before, some c) :: sides (some c) text

/-- The places in either of two sets of marks. -/
def Marks.union (a b : Marks) : Marks := List.zipWith (· || ·) a b

/-- The places that are reached over any number of characters of a set; `reached` says whether the
first of them is. -/
def Marks.spread (s : CharSet) (reached : Bool) : List Char → Marks → Marks
  | [], marks => marks.map (· || reached)
  | _, [] => []
  | c :: text, mark :: marks =>
    let mark := mark || reached
    mark :: spread s (mark && s.has c) text marks

/-- The places that are reached by doing `go` any number of times, at most `fuel`. -/
def Marks.closure (go : Marks → Marks) : (fuel : Nat) → Marks → Marks
  | 0, marks => marks
  | fuel + 1, marks =>
    let more := marks.union (go marks)
    if more = marks then marks else closure go fuel more

namespace Pattern

/-- The places where pieces that the pattern describes end, if they begin at the marked places. -/
def through (text : List Char) : Pattern → Marks → Marks
  | empty, marks => marks
  | set s, marks => false :: List.zipWith (fun mark c => mark && s.has c) marks text
  | edge e, marks =>
    List.zipWith (fun mark (before, after) => mark && e.holds before after) marks (sides none text)
  | seq a b, marks => b.through text (a.through text marks)
  | either a b, marks => (a.through text marks).union (b.through text marks)
  | times (.set s) low none, marks =>
    Marks.spread s false text (Nat.repeat ((set s).through text) low marks)
  | times a low more, marks =>
    Marks.closure (a.through text) (more.getD (text.length + 1))
      (Nat.repeat (a.through text) low marks)

/-- Whether the pattern describes a piece of the text. -/
def occursIn (p : Pattern) (text : List Char) : Bool :=
  (p.through text (List.replicate (text.length + 1) true)).any id

/-- One pattern after the other. -/
def all (ps : List Pattern) : Pattern := ps.foldr seq empty

/-- How large a pattern is once what it repeats is written out. -/
def weight : Pattern → Nat
  | empty => 0
  | set s => s.weight
  | edge _ => 1
  | seq a b => a.weight + b.weight
  | either a b => a.weight + b.weight + 1
  | times a low more => a.weight * (low + more.getD 1) + 1

end Pattern

end CompilerWrapper.Text
