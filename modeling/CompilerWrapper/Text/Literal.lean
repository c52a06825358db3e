import CompilerWrapper.Text.Hidden
import CompilerWrapper.Text.Utf8

/-!
# Bytes as a literal

For a message that has to show exactly which bytes a path has, the bytes are written between
quotation marks. Characters that show are written as they are but for quotation marks and
backslashes, hidden ones as escapes, and damaged pieces byte by byte.
-/

namespace CompilerWrapper.Text

/-- The digits of a number in base sixteen, small letters. -/
def hexDigits (n : Nat) : List Char := Nat.toDigits 16 n

/-- A character within a literal. -/
def literalChar (c : Char) : List Char :=
  match c with
  | '\x00' => ['\\', '0']
  | '\t' => ['\\', 't']
  | '\n' => ['\\', 'n']
  | '\r' => ['\\', 'r']
  | '"' | '\\' => ['\\', c]
  | c =>
    if isHidden c then "\\u\x7b".toList ++ hexDigits c.toNat ++ ['\x7d'] else [c]

/-- A byte within a literal. -/
def literalByte (b : UInt8) : List Char :=
  let digits := (hexDigits b.toNat).map Char.toUpper
  "\\x".toList ++ (if digits.length < 2 then '0' :: digits else digits)

/-- The character that the bytes at the front spell, and how many bytes it takes. -/
def frontChar? (bs : Bytes) : Option (Char × Nat) :=
  [1, 2, 3, 4].findSome? fun n => match Utf8.decode? (bs.take n) with
    | some [c] => some (c, n)
    | _ => none

/-- The literal form of bytes, without its quotation marks; every byte uses up one unit of
`fuel`. -/
def literalBody : (fuel : Nat) → Bytes → List Char
  | 0, _ | _, [] => []
  | fuel + 1, b :: bs =>
    match frontChar? (b :: bs) with
    | some (c, n) => literalChar c ++ literalBody fuel ((b :: bs).drop n)
    | none => literalByte b ++ literalBody fuel bs

/-- The literal form of bytes. -/
def literal (bs : Bytes) : String :=
  String.ofList ('"' :: literalBody bs.length bs ++ ['"'])

end CompilerWrapper.Text
