import CompilerWrapper.Text.Blank
import CompilerWrapper.Text.Utf8

/-!
# One entry of the diagnostics log

An entry tells which command was run and what it printed on standard error. It is written as one
block: a header line, the command, an empty line, the output as it is, a footer line and an empty
line. Nothing in the command or in the output is escaped.
-/

namespace CompilerWrapper.Log

/-- What a compile that had something to say leaves in the log. -/
structure Entry where
  /-- The command line, its words joined by spaces. -/
  command : String
  /-- What the compiler printed on standard error. -/
  stderr : Bytes
deriving DecidableEq, Repr

/-- The line that opens an entry. -/
def header : String := "==================COMMAND:====================\n"

/-- The line that closes an entry. -/
def footer : String := "==============================================\n"

/-- The empty line between a command and its output, with the end of the command's line. -/
def blankLine : String := "\n\n"

/-- What ends an entry's output: the footer and an empty line. -/
def closing : String := footer ++ "\n"

/-- The block that stands for the entry in the log. -/
def Entry.render (e : Entry) : Bytes :=
  .ofText header ++ .ofText e.command ++ .ofText blankLine ++ e.stderr ++ .ofText closing

/-- The block of an entry is not empty, since it has a header. -/
theorem Entry.render_ne_nil (e : Entry) : e.render ≠ [] := by
  intro h
  have empty : Bytes.ofText header = [] := by
    simp only [Entry.render, List.append_eq_nil_iff] at h
    exact h.1.1.1.1
  exact absurd empty (by decide)

/-- The first line of the output that holds more than white space. -/
def Entry.firstDiagnostic? (e : Entry) : Option String :=
  (Text.firstWritten? (Utf8.decodeLossy e.stderr)).map String.ofList

end CompilerWrapper.Log
