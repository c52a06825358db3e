import CompilerWrapper.Toml.Quoted
import CompilerWrapper.Toml.Value

/-!
# TOML numbers

A number is one word without spaces. Underscores may stand between two digits and nowhere else;
the whole part of a decimal number has no leading zeros; a base other than ten takes no sign.

Two limits are the reader's own: an integer has to fit in 128 bits, with a sign or without one, and
a float may not be so large that the nearest double is infinite.
-/

namespace CompilerWrapper.Toml

/-- The digits after a digit. -/
def moreDigits (base : Nat) : List Char → Option (List Nat)
  | [] => some []
  | '_' :: c :: cs => do
    let d ← digit? base c
    pure (d :: (← moreDigits base cs))
  | c :: cs => do
    let d ← digit? base c
    pure (d :: (← moreDigits base cs))

/-- The digits of a word; at least one, and underscores only between two of them. -/
def digits? (base : Nat) : List Char → Option (List Nat)
  | [] => none
  | c :: cs => do
    let d ← digit? base c
    pure (d :: (← moreDigits base cs))

/-- The number with the given digits, the first one weighing most. -/
def ofDigits (base : Nat) (digits : List Nat) : Nat :=
  digits.foldl (· * base + ·) 0

/-- Digits without a leading zero. -/
def wholeDigits? (word : List Char) : Option (List Nat) := do
  let digits ← digits? 10 word
  if digits.length > 1 ∧ digits.head? = some 0 then none else some digits

/-- A word without its sign, and whether the sign was a minus. -/
def cutSign : List Char → Bool × List Char
  | '+' :: word => (false, word)
  | '-' :: word => (true, word)
  | word => (false, word)

/-- The integers that fit in 128 bits, with a sign or without one. -/
def fits (n : Int) : Bool := -(Int.pow 2 127) ≤ n && n < Int.pow 2 128

/-- An integer, in base ten, sixteen, eight or two. -/
def integer? (word : List Char) : Option Int := do
  let n : Int ← match word with
    | '0' :: 'x' :: word => (digits? 16 word).map fun ds => (ofDigits 16 ds : Int)
    | '0' :: 'o' :: word => (digits? 8 word).map fun ds => (ofDigits 8 ds : Int)
    | '0' :: 'b' :: word => (digits? 2 word).map fun ds => (ofDigits 2 ds : Int)
    | word => do
      let (negative, word) := cutSign word
      let n ← (wholeDigits? word).map (ofDigits 10)
      pure (if negative then -(n : Int) else n)
  if fits n then some n else none

/-- The least number whose nearest double is infinite: half a step above the largest double. -/
def doubleLimit : Nat := Nat.pow 2 1024 - Nat.pow 2 970

/-- Whether a number of the form `significand * 10 ^ exponent` is below the limit. The two bounds
on its size keep the powers small. -/
def isFinite (significand : Nat) (exponent : Int) : Bool :=
  let size := (Nat.toDigits 10 significand).length + exponent
  if significand = 0 ∨ size ≤ 308 then true
  else if 310 ≤ size then false
  else if 0 ≤ exponent then significand * Nat.pow 10 exponent.toNat < doubleLimit
  else significand < doubleLimit * Nat.pow 10 (-exponent).toNat

/-- The exponent of a float: a sign and digits, leading zeros allowed. -/
def exponent? (word : List Char) : Option Int := do
  let (negative, word) := cutSign word
  let n := ofDigits 10 (← digits? 10 word)
  pure (if negative then -(n : Int) else n)

/-- Cuts a word at the first character that satisfies `p`. -/
def cutAt? (p : Char → Bool) (word : List Char) : Option (List Char × List Char) :=
  match word.dropWhile fun c => !p c with
  | [] => none
  | _ :: after => some (word.takeWhile fun c => !p c, after)

/-- A finite float: digits with a fraction, an exponent or both. -/
def finiteFloat? (negative : Bool) (word : List Char) : Option Decimal := do
  let (mantissa, exponent) ← match cutAt? (fun c => c == 'e' || c == 'E') word with
    | some (mantissa, word) => (exponent? word).map (mantissa, ·)
    | none => if word.contains '.' then some (word, 0) else none
  let (whole, fraction) ← match cutAt? (· == '.') mantissa with
    | some (whole, fraction) => do pure (← wholeDigits? whole, ← digits? 10 fraction)
    | none => do pure (← wholeDigits? mantissa, [])
  let significand := ofDigits 10 (whole ++ fraction)
  let exponent := exponent - fraction.length
  if isFinite significand exponent then some (.finite negative significand exponent) else none

/-- A floating-point number. -/
def float? (word : List Char) : Option Decimal :=
  let (negative, word) := cutSign word
  if word = "inf".toList then some (.infinite negative)
  else if word = "nan".toList then some .notANumber
  else finiteFloat? negative word

end CompilerWrapper.Toml
