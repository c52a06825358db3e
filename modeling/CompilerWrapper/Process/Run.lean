import CompilerWrapper.Admin
import CompilerWrapper.Process.Program
import CompilerWrapper.Wrapper

/-!
# Running a process

A process that runs the wrapper's program is the administration command line if it was started
under that name, and otherwise stands in for the compiler under whose name its file lies. It may
start other programs and become another one, and those may be copies of the wrapper again. Nothing
in that bounds how long it goes on, so `execute` is given a number of programs that it may start
one from the other, and gives `none` when they are used up.

While the wrapper runs its file cannot be written. A process that is to become a file that is no
program becomes the shell, which runs the file; a process that starts another does not ask the
shell.
-/

namespace CompilerWrapper

/-- A way to run a command in an environment: the tree after it, and what it printed. -/
abbrev Executor :=
  Environment → FileTree → Command → Option (Except Fault (FileTree × Response))

/-- What a running process has changed and printed so far. -/
structure World where
  tree : FileTree
  stdout : Bytes
  stderr : Bytes

/-- The effects of a running process. -/
abbrev Running := StateT World Option

/-- The environment variable with the filter for the wrapper's own messages. -/
def filterVariable : String := "CCWRAP_LOG"

/-- The wrapper's message filter, and the warnings about it. Without one only what matters as much
as a warning is shown, so that the build sees the compiler's output alone. -/
def wrapperFilter (env : Environment) : Filter × List String :=
  Filter.read ((env.text? filterVariable).getD "warn".toList)

/-- Tells a message on standard error, if the filter shows it. -/
def tell (env : Environment) (m : Message) : Running Unit :=
  if (wrapperFilter env).1.shows m then
    modify fun w => { w with
      stderr := w.stderr ++ (Palette.ofEnvironment env).line s!"ccwrap: {m.text}" }
  else pure ()

/-- Runs a compiler with its standard error captured; the rest of its output is the process's
own. -/
def runCaptured (exec : Executor) (env : Environment) (line : List Bytes) :
    Running (Except Fault Finished) :=
  match line with
  | [] => pure (.error .notFound)
  | program :: args => do
    let w ← get
    match ← (exec env w.tree ⟨program, program, args⟩ : Option _) with
    | .error fault => pure (.error fault)
    | .ok (tree, response) =>
      set { w with tree := tree, stdout := w.stdout ++ response.stdout }
      pure (.ok ⟨response.stderr, response.ending⟩)

/-- Adds an entry to a log in the tree. -/
def recordEntry (p : Path) (e : Log.Entry) : Running (Except Failure Unit) := do
  let w ← get
  let (result, tree) := Log.append w.tree p e
  set { w with tree := tree }
  pure result

/-- The surroundings of a wrapper that runs as a process. -/
def processHost (exec : Executor) (env : Environment) : Host Running where
  runCompiler := runCaptured exec env
  record := recordEntry
  tell := tell env

/-- The mode that the environment chooses. -/
def modeOf (env : Environment) : Mode :=
  .ofVariables (env.get? redirectVariable) (env.get? prebuiltVariable)

/-- Serves the call of a wrapper that runs as a process. -/
def serveCall (exec : Executor) (env : Environment) (wrapper : Path) (words : List Bytes) :
    Running (Except Failure Decision) := do
  match Call.ofWords words wrapper with
  | .error failure => pure (.error failure)
  | .ok call =>
    let w ← get
    match Flags.resolve w.tree call.dir with
    | .error failure => pure (.error failure)
    | .ok (flags, told) =>
      for m in told do tell env m
      let mode := modeOf env
      tell env ⟨.debug, .program, s!"{mode.describe} mode for {wrapper.display}"⟩
      Wrapper.run (processHost exec env) ⟨call, flags⟩ mode

/-- The process gives up with a line on standard error. -/
def giveUp (w : World) (report : String) : FileTree × Response :=
  (w.tree, ⟨w.stdout, w.stderr ++ Bytes.ofText report, .exited 1⟩)

/-- The path of the shell. -/
def Shell.path : Path := Bytes.ofText "/bin/sh"

/-- The command that gives a file to the shell, with the arguments of the command that was to run
it. -/
def Shell.commandFor (c : Command) : Command := ⟨path, path, c.program :: c.args⟩

/-- Becomes the program that a command runs, or the shell if its file is no program. -/
def become (exec : Executor) (env : Environment) (t : FileTree) (c : Command) :
    Option (Except Fault (FileTree × Response)) := do
  match ← exec env t c with
  | .error .notExecutable => exec env t (Shell.commandFor c)
  | outcome => some outcome

/-- Carries out what was decided. A process that becomes another program ends as that program
does. -/
def carryOut (exec : Executor) (env : Environment) (w : World) :
    Except Failure Decision → Option (FileTree × Response)
  | .error failure => some (giveUp w failure.report)
  | .ok (.finish code) => some (w.tree, ⟨w.stdout, w.stderr, .exited code⟩)
  | .ok (.become command) => do
    match ← become exec env w.tree command with
    | .error fault =>
      some (giveUp w s!"Error: failed to execute {command.program.display}: {fault.message}\n")
    | .ok (tree, response) =>
      some (tree, ⟨w.stdout ++ response.stdout, w.stderr ++ response.stderr, response.ending⟩)

/-- A process that runs the wrapper's program, whose file lies at a place, as a compiler. -/
def actAsCompiler (exec : Executor) (env : Environment) (t : FileTree) (place : Location)
    (words : List Bytes) : Option (FileTree × Response) := do
  let warnings := Filter.showWarnings (wrapperFilter env).2
  let (decided, w) ←
    (serveCall exec env (absolutePath place) words).run ⟨t.start place, [], warnings⟩
  carryOut exec env { w with tree := w.tree.stop place } decided

/-- A process that runs the wrapper's program as the administration command line. -/
def actAsAdmin (env : Environment) (t : FileTree) (place : Location) (words : List Bytes) :
    FileTree × Response :=
  let (t, response) := Admin.run env (absolutePath place) (t.start place) words
  (t.stop place, response)

/-- A process that runs the wrapper's program, whose file lies at a place. -/
def runWrapper (exec : Executor) (env : Environment) (t : FileTree) (place : Location)
    (c : Command) : Option (FileTree × Response) :=
  if Admin.isAdmin c.arg0 then some (actAsAdmin env t place c.args)
  else actAsCompiler exec env t place (c.arg0 :: c.args)

/-- Runs a command on a machine; at most `fuel` programs may be started one from the other. -/
def execute (m : Machine) : (fuel : Nat) → Executor
  | 0, _, _, _ => none
  | fuel + 1, env, t, c =>
    match findProgram m env t c with
    | .error fault => some (.error fault)
    | .ok image =>
      match image.program with
      | .wrapper => (runWrapper (execute m fuel) env t image.place image.command).map .ok
      | .other respond => some (.ok (respond env image.command t))

end CompilerWrapper
