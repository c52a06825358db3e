import CompilerWrapper.Path

/-!
# Commands and how they end

A command names the program to run, the name that the program is to see as its own, and its
arguments. For the log and for messages a command line is shown as its words with single spaces
between them; nothing is quoted, so the words cannot be told apart again.
-/

namespace CompilerWrapper

/-- A program to run and what it is given. -/
structure Command where
  program : Path
  /-- The name that the program sees as its own. -/
  arg0 : Bytes
  args : List Bytes
deriving DecidableEq, Repr

/-- A command line as text. -/
def displayLine (words : List Bytes) : String :=
  " ".intercalate (words.map Bytes.toText)

/-- How a process ended. -/
inductive Ending where
  | exited (code : Nat)
  | killed (signal : Nat)
deriving DecidableEq, Repr

namespace Ending

/-- Whether a process did what it was asked: only the exit code 0 says so. -/
def succeeded (e : Ending) : Bool := e = .exited 0

/-- The ending as one number, as a shell shows it: a signal counts from 128 on. -/
def status : Ending → Nat
  | exited code => code
  | killed signal => 128 + signal

/-- The names of the signals, from 1 on. -/
def signalNames : List String :=
  ["HUP", "INT", "QUIT", "ILL", "TRAP", "ABRT", "BUS", "FPE", "KILL", "USR1", "SEGV", "USR2",
   "PIPE", "ALRM", "TERM", "STKFLT", "CHLD", "CONT", "STOP", "TSTP", "TTIN", "TTOU", "URG", "XCPU",
   "XFSZ", "VTALRM", "PROF", "WINCH", "IO", "PWR", "SYS"]

/-- The ending in words. -/
def describe : Ending → String
  | exited code => s!"exit status: {code}"
  | killed 0 => "signal: 0"
  | killed (n + 1) =>
    match signalNames[n]? with
    | some name => s!"signal: {n + 1} (SIG{name})"
    | none => s!"signal: {n + 1}"

end Ending

end CompilerWrapper
