import CompilerWrapper.Call
import CompilerWrapper.Flags
import CompilerWrapper.Log.Entry
import CompilerWrapper.Message
import CompilerWrapper.Mode

/-!
# What the wrapper does with a call

In direct mode the wrapper becomes the real compiler. In capture mode it runs the real compiler,
adds an entry to the log if the compiler had something to say, and then ends with success if the
compiler succeeded, or becomes the prebuilt compiler, which gets the call as it was made.

The effects are those of a `Host`: the wrapper is written for any monad that can run a compiler,
add to a log and tell a message, so that what it does can be looked at apart from what files and
processes do.
-/

namespace CompilerWrapper

/-- A wrapper that was called, and its flags. -/
structure Wrapper where
  call : Call
  flags : Flags
deriving DecidableEq, Repr

/-- What the wrapper's process does in the end. -/
inductive Decision where
  | finish (code : Nat)
  /-- It becomes another program. -/
  | become (command : Command)
deriving DecidableEq, Repr

/-- What a compiler left when it ended. -/
structure Finished where
  stderr : Bytes
  ending : Ending
deriving DecidableEq, Repr

/-- What a wrapper needs from its surroundings. -/
structure Host (m : Type → Type) where
  /-- Runs the program that the first word names with the other words as its arguments, and waits
  for its end. -/
  runCompiler : (line : List Bytes) → m (Except Fault Finished)
  /-- Adds an entry to a log. -/
  record : Path → Log.Entry → m (Except Failure Unit)
  tell : Message → m Unit

namespace Wrapper

/-- The real compiler with the arguments of the call and the flags that are always added. -/
def directCommand (w : Wrapper) : Command where
  program := w.call.realPath
  arg0 := w.call.realName
  args := w.call.args ++ w.flags.direct.map Bytes.ofText

/-- The command line that is run to capture what the real compiler prints. -/
def captureLine (w : Wrapper) : List Bytes :=
  w.call.realPath :: (w.call.args ++ w.flags.capture.map Bytes.ofText)

/-- The prebuilt compiler with the call as it was made. -/
def fallbackCommand (w : Wrapper) (prebuilt : Option Path) : Except Failure Command :=
  match prebuilt with
  | none => .error .noPrebuilt
  | some dir => do pure ⟨← w.call.prebuiltPath dir, w.call.name, w.call.args⟩

/-- The log entry about what the real compiler printed. -/
def entryFor (w : Wrapper) (stderr : Bytes) : Log.Entry := ⟨displayLine w.captureLine, stderr⟩

section Effects

variable {m : Type → Type} [Monad m]

/-- Adds an entry to the log if the real compiler printed anything. -/
def recordDiagnostics (host : Host m) (w : Wrapper) (log : Path) (stderr : Bytes) :
    m (Except Failure Unit) :=
  if stderr = [] then pure (.ok ()) else host.record log (w.entryFor stderr)

/-- What is decided once the real compiler has ended and its diagnostics are in the log. -/
def conclude (host : Host m) (w : Wrapper) (prebuilt : Option Path) (ending : Ending) :
    m (Except Failure Decision) :=
  if ending.succeeded then pure (.ok (.finish 0))
  else do
    host.tell ⟨.debug, .wrapper, s!"{w.call.realPath.display} exited with {ending.describe}" ++
      ", falling back to the prebuilt compiler"⟩
    pure ((w.fallbackCommand prebuilt).map .become)

/-- Runs the real compiler and captures what it prints. -/
def capture (host : Host m) (w : Wrapper) (log : Path) (prebuilt : Option Path) :
    m (Except Failure Decision) := do
  host.tell ⟨.debug, .wrapper, s!"running {displayLine w.captureLine}"⟩
  match ← host.runCompiler w.captureLine with
  | .error fault => pure (.error (.refused (.running w.call.realPath) fault))
  | .ok finished =>
    match ← w.recordDiagnostics host log finished.stderr with
    | .error failure => pure (.error failure)
    | .ok () => w.conclude host prebuilt finished.ending

/-- Serves a call. -/
def run (host : Host m) (w : Wrapper) : Mode → m (Except Failure Decision)
  | .direct => pure (.ok (.become w.directCommand))
  | .capture log prebuilt => w.capture host log prebuilt

end Effects

end Wrapper

end CompilerWrapper
