/-!
# Bytes and the text they spell

Process arguments, paths and what a compiler prints are bytes, and nothing promises that they
are UTF-8. This module writes a text as bytes (`encode`) and reads bytes back as text in two
ways: `decode?` refuses anything that is not UTF-8, `decodeLossy` puts one replacement character
in the place of each damaged piece.

Both readings come from one decoder, which takes the bytes one at a time. A *piece* of the text
is a character, or `none` where the bytes spell no character. A damaged piece is as long as
possible: it ends just before the first byte that could not continue it, and that byte is then
read as if it came first. So a byte below 0x80 is always a character of its own, whatever stands
before it.
-/

namespace CompilerWrapper

/-- A string of bytes: a file's contents, an argument, a path. -/
abbrev Bytes := List UInt8

namespace Utf8

/-- The UTF-8 form of a text. -/
def encode (text : List Char) : Bytes :=
  text.flatMap String.utf8EncodeChar

/-! ### The decoder -/

/-- Where the decoder stands between two bytes: at the start of a character, or inside one whose
bytes so far spell `value`, with `more + 1` bytes missing, the next of them between `low` and
`high`. No byte below 0x80 continues a character. -/
inductive State where
  | start
  | inside (value more : Nat) (low high : UInt8) (tail : 0x80 ≤ low)
deriving DecidableEq, Repr

/-- The piece that is lost if the text ends here: a character cut short. -/
def State.cut : State → List (Option Char)
  | .start => []
  | .inside .. => [none]

/-- The first byte of a character: the piece it completes, if it completes one, and the state
after it. The bounds on the second byte rule out overlong forms, surrogates and numbers beyond
the last character. -/
def first (b : UInt8) : List (Option Char) × State :=
  if b < 0x80 then ([some (Char.ofNat b.toNat)], .start)
  else if b < 0xC2 then ([none], .start)
  else if b < 0xE0 then ([], .inside (b.toNat % 32) 0 0x80 0xBF (by decide))
  else if b < 0xF0 then
    ([], .inside (b.toNat % 16) 1 (if b = 0xE0 then 0xA0 else 0x80)
      (if b = 0xED then 0x9F else 0xBF) (by split <;> decide))
  else if b < 0xF5 then
    ([], .inside (b.toNat % 8) 2 (if b = 0xF0 then 0x90 else 0x80)
      (if b = 0xF4 then 0x8F else 0xBF) (by split <;> decide))
  else ([none], .start)

/-- The pieces that the next byte completes, and the state after it. A byte that cannot continue
the character ends a damaged piece and is read as a first byte. -/
def step : State → UInt8 → List (Option Char) × State
  | .start, b => first b
  | .inside value more low high _, b =>
    if low ≤ b ∧ b ≤ high then
      let value := value * 64 + b.toNat % 64
      match more with
      | 0 => ([some (Char.ofNat value)], .start)
      | more + 1 => ([], .inside value more 0x80 0xBF (by decide))
    else (none :: (first b).1, (first b).2)

/-- The pieces of the bytes read from state `s`, after the pieces `done`, which are held in
reverse. -/
def piecesAfter (done : List (Option Char)) (s : State) : Bytes → List (Option Char)
  | [] => done.reverse ++ s.cut
  | b :: bs => piecesAfter ((step s b).1.reverse ++ done) (step s b).2 bs

/-- The pieces of the text that the bytes spell: a character each, or `none` where they are
damaged. -/
def pieces (bs : Bytes) : List (Option Char) :=
  piecesAfter [] .start bs

/-- The text, if every piece of it is a character. -/
def decode? (bs : Bytes) : Option (List Char) :=
  (pieces bs).mapM id

/-- The character that stands in for a damaged piece. -/
def replacement : Char := '\uFFFD'

/-- The text, with a replacement character for each damaged piece. -/
def decodeLossy (bs : Bytes) : List Char :=
  (pieces bs).map (·.getD replacement)

/-! ### What was read before does not change what is read next -/

theorem piecesAfter_eq (done : List (Option Char)) (s : State) (bs : Bytes) :
    piecesAfter done s bs = done.reverse ++ piecesAfter [] s bs := by
  induction bs generalizing done s with
  | nil => simp [piecesAfter]
  | cons b bs ih =>
    simp only [piecesAfter]
    rw [ih, ih ((step s b).1.reverse ++ [])]
    simp

theorem piecesAfter_cons (s : State) (b : UInt8) (bs : Bytes) :
    piecesAfter [] s (b :: bs) = (step s b).1 ++ piecesAfter [] (step s b).2 bs := by
  rw [piecesAfter, piecesAfter_eq]
  simp

/-- **A byte below 0x80 is a character of its own**, and cuts short whatever stands before it. -/
theorem step_ascii (s : State) {b : UInt8} (h : b < 0x80) :
    step s b = (s.cut ++ [some (Char.ofNat b.toNat)], .start) := by
  have hf : first b = ([some (Char.ofNat b.toNat)], .start) := by simp [first, h]
  cases s with
  | start => simp [step, State.cut, hf]
  | inside value more low high tail =>
    have hlow : ¬ (low ≤ b ∧ b ≤ high) := fun hb =>
      absurd (UInt8.lt_of_le_of_lt (UInt8.le_trans tail hb.1) h) (UInt8.lt_irrefl _)
    simp [step, State.cut, hf, hlow]

end Utf8

/-- The bytes of a text. -/
def Bytes.ofText (s : String) : Bytes := Utf8.encode s.toList

/-- The text that the bytes spell, with a replacement character for each damaged piece. -/
def Bytes.toText (bs : Bytes) : String := String.ofList (Utf8.decodeLossy bs)

end CompilerWrapper
