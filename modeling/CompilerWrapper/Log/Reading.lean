import CompilerWrapper.Log.Entry
import CompilerWrapper.Text.Search

/-!
# Reading the diagnostics log

A log is read from its start. An entry begins at the next header; its command ends at the first
empty line after that, and its output at the first footer with an empty line after that. What
stands between entries is passed over, and an entry that is not finished ends the reading.

The rule is stated once, for any alphabet and any three marks (`split`), because a log can be
taken apart as characters or as bytes. `entries` does the former: the log is decoded as a whole,
so the output of an entry that was read back is always UTF-8.
-/

namespace CompilerWrapper.Log

/-- The three marks that structure a log. -/
structure Marks (α : Type) where
  header : List α
  blankLine : List α
  closing : List α
  header_ne_nil : header ≠ []
  blankLine_ne_nil : blankLine ≠ []
  closing_ne_nil : closing ≠ []

/-- The marks as characters. -/
def charMarks : Marks Char where
  header := header.toList
  blankLine := blankLine.toList
  closing := closing.toList
  header_ne_nil := by decide
  blankLine_ne_nil := by decide
  closing_ne_nil := by decide

/-- The marks as bytes. -/
def byteMarks : Marks UInt8 where
  header := Bytes.ofText header
  blankLine := Bytes.ofText blankLine
  closing := Bytes.ofText closing
  header_ne_nil := by decide
  blankLine_ne_nil := by decide
  closing_ne_nil := by decide

section Split

variable {α : Type} [DecidableEq α]

/-- The command and the output of the first entry, and what stands after the entry. -/
def splitFirst? (m : Marks α) (text : List α) : Option ((List α × List α) × List α) := do
  let (_, body) ← Text.splitFirst? m.header text
  let (command, rest) ← Text.splitFirst? m.blankLine body
  let (output, rest) ← Text.splitFirst? m.closing rest
  pure ((command, output), rest)

/-- What is left after an entry is shorter than the text, since the entry had a header. -/
theorem splitFirst?_rest_lt {m : Marks α} {text rest : List α} {entry : List α × List α}
    (h : splitFirst? m text = some (entry, rest)) : rest.length < text.length := by
  simp only [splitFirst?, Option.bind_eq_bind, Option.bind_eq_some_iff, Prod.exists] at h
  obtain ⟨_, body, hbody, _, rest₁, hrest₁, _, rest₂, hrest₂, h⟩ := h
  obtain ⟨-, rfl⟩ := Prod.mk.inj (Option.some.inj h)
  have h₁ := Text.length_after_lt hbody m.header_ne_nil
  have h₂ := congrArg List.length (Text.append_of_splitFirst? hrest₁)
  have h₃ := congrArg List.length (Text.append_of_splitFirst? hrest₂)
  simp only [List.length_append] at h₂ h₃
  omega

/-- The commands and the outputs of the entries of a text, in order. -/
def split (m : Marks α) (text : List α) : List (List α × List α) :=
  match _h : splitFirst? m text with
  | none => []
  | some (entry, rest) => entry :: split m rest
termination_by text.length
decreasing_by exact splitFirst?_rest_lt ‹_›

end Split

/-- The entries of a log. -/
def entries (contents : Bytes) : List Entry :=
  (split charMarks (Utf8.decodeLossy contents)).map fun (command, output) =>
    ⟨String.ofList command, Utf8.encode output⟩

end CompilerWrapper.Log
