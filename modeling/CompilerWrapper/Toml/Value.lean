/-!
# TOML values

What a TOML document means: a table of named values. A table remembers how it came about
(`Origin`), because that decides whether later lines may still add to it.
-/

namespace CompilerWrapper.Toml

/-- A floating-point number as it is written: a decimal fraction, an infinity or no number. -/
inductive Decimal where
  /-- The number `significand * 10 ^ exponent`, or its negative. -/
  | finite (negative : Bool) (significand : Nat) (exponent : Int)
  | infinite (negative : Bool)
  | notANumber
deriving DecidableEq, Repr

/-- How a table came about. -/
inductive Origin where
  /-- It has a header of its own, or is the document itself. -/
  | header
  /-- It stands on the way to a header. -/
  | implied
  /-- It stands on the way to a dotted key. -/
  | dotted
  /-- It is written between braces. -/
  | inline
deriving DecidableEq, Repr

/-- A TOML value. The entries of a table are kept in the order of their first appearance. -/
inductive Value where
  | string (text : String)
  | integer (n : Int)
  | float (x : Decimal)
  | boolean (b : Bool)
  /-- A date, a time of day or both, as written. -/
  | moment (text : String)
  | array (items : List Value)
  /-- The tables under one `[[header]]`, each given by its entries. -/
  | tables (items : List (List (String × Value)))
  | table (origin : Origin) (entries : List (String × Value))

/-- Why a text is no TOML document. -/
inductive Flaw where
  /-- It is not written as the language asks, or contradicts itself. -/
  | malformed
  /-- A dotted key has too many parts. -/
  | keyTooLong
deriving DecidableEq, Repr

/-- The named values of a table. -/
abbrev Entries := List (String × Value)

namespace Entries

/-- The value under a key. -/
def get? (entries : Entries) (key : String) : Option Value :=
  entries.lookup key

/-- The entries with `value` under `key`, in the place where the key stands already, or at the
end. -/
def set (entries : Entries) (key : String) (value : Value) : Entries :=
  match entries with
  | [] => [(key, value)]
  | (k, v) :: rest => if k = key then (k, value) :: rest else (k, v) :: set rest key value

@[simp] theorem get?_nil (key : String) : get? [] key = none := rfl

theorem get?_cons (k : String) (v : Value) (rest : Entries) (key : String) :
    get? ((k, v) :: rest) key = if key = k then some v else get? rest key := by
  unfold get?
  rw [List.lookup_cons]
  by_cases h : key = k
  · rw [if_pos h, beq_iff_eq.mpr h]
  · rw [if_neg h, beq_false_of_ne h]

/-- Setting a key changes what is under that key and nothing else. -/
theorem get?_set (entries : Entries) (key : String) (value : Value) (other : String) :
    (entries.set key value).get? other =
      if other = key then some value else entries.get? other := by
  induction entries with
  | nil => simp [set, get?_cons]
  | cons entry rest ih =>
    obtain ⟨k, v⟩ := entry
    by_cases hk : k = key
    · subst hk; by_cases ho : other = k <;> simp [set, get?_cons, ho]
    · by_cases ho : other = k
      · subst ho; simp [set, get?_cons, hk]
      · simp [set, get?_cons, hk, ho, ih]

end Entries

end CompilerWrapper.Toml
