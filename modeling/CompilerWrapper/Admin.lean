import CompilerWrapper.Admin.Request
import CompilerWrapper.Flags
import CompilerWrapper.Log.Append
import CompilerWrapper.Message.Filter
import CompilerWrapper.Terminal

/-!
# The administration commands

Installing the wrapper, reading a log and showing flags. What a command has to report about its
work goes to standard error as messages; standard output is for the log alone.
-/

namespace CompilerWrapper.Admin

/-- The file name without extension under which the program is the administration command line. -/
def programName : String := "ccwrap"

/-- Whether a program that was started under this name is the administration command line. -/
def isAdmin (name : Path) : Bool := name.stem? == some (Bytes.ofText programName)

/-- The line that tells the version. -/
def versionLine : String := programName ++ " 0.1.0\n"

/-- The level up to which messages are shown at a verbosity. -/
def levelFor : (verbosity : Nat) → Level
  | 0 => .info
  | 1 => .debug
  | _ => .trace

/-- The environment variable with the filter for messages. -/
def filterVariable : String := "RUST_LOG"

/-- Which messages are shown at a verbosity, and the warnings about the filter in the
environment. The verbosity decides about every topic of which the filter does not speak. -/
def filterFor (env : Environment) (verbosity : Nat) : Filter × List String :=
  let (filter, warnings) := Filter.read ((env.text? filterVariable).getD [])
  (filter.upTo (levelFor verbosity), warnings)

/-- A message on standard error. Only plain information is without colour. -/
def showMessage (p : Palette) (m : Message) : Bytes :=
  p.line (if m.level = .info ∨ p.stderr = false then m.text
    else Text.Style.yellow.on ++ m.text ++ Text.styleOff)

/-- All messages that the filter lets pass. -/
def showMessages (p : Palette) (f : Filter) (told : List Message) : Bytes :=
  (told.filter f.shows).flatMap (showMessage p)

/-- What is shown of a log entry: the command, and the first diagnostic or all that was printed. -/
def showEntry (p : Palette) (full : Bool) (e : Log.Entry) : String :=
  p.styled .bold e.command ++ "\n" ++
    if full then e.stderr.toText
    else match e.firstDiagnostic? with
      | none => ""
      | some line => "    " ++ p.styled .dimmed line ++ "\n"

/-- The summary of a log. -/
def showLog (p : Palette) (full : Bool) (entries : List Log.Entry) : String :=
  String.join (entries.map (showEntry p full))

/-- The aliases that an install makes: those that were asked for, or the default ones whose target
is among the tools. -/
def chooseAliases (tools : List String) (aliases : List Install.Alias) : List Install.Alias :=
  if aliases = [] then Install.defaultAliases.filter fun a => a.target ∈ tools else aliases

/-- The tools that an install wraps. -/
def chooseTools (tools : List String) : List String :=
  if tools = [] then Install.defaultTools else tools

/-- What a command leaves: the tree, its standard output, what it tells, and the failure that
ended it, if one did. -/
structure Outcome where
  tree : FileTree
  stdout : String
  told : List Message
  failure? : Option Failure

/-- The messages that show flags. -/
def flagMessages (flags : Flags) : List Message :=
  [⟨.info, .program, "direct:  " ++ " ".intercalate flags.direct⟩,
   ⟨.info, .program, "capture: " ++ " ".intercalate flags.capture⟩]

/-- Serves a request. `program` is the path of the running program. -/
def serve (p : Palette) (program : Path) (t : FileTree) : Request → Outcome
  | .install dir tools aliases =>
    let tools := chooseTools tools
    let outcome := Install.run ⟨dir, program, tools, chooseAliases tools aliases⟩ t
    ⟨outcome.tree, "", outcome.told, outcome.failure?⟩
  | .log path full =>
    match Log.read t path with
    | .error failure => ⟨t, "", [], some failure⟩
    | .ok entries =>
      ⟨t, showLog p full entries,
        [⟨.info, .program, s!"{entries.length} entries in {path.display}"⟩], none⟩
  | .flags dir =>
    let resolved : Except Failure (Flags × List Message) := match dir with
      | none => .ok (Flags.builtIn, [])
      | some dir => Flags.resolve t dir
    match resolved with
    | .error failure => ⟨t, "", [], some failure⟩
    | .ok (flags, told) => ⟨t, "", told ++ flagMessages flags, none⟩

/-- The files that a request reads. -/
def Request.sources : Request → List Path
  | .install .. | .flags none => []
  | .log p _ => [p]
  | .flags (some dir) => [dir.join (.ofText Flags.fileName)]

/-- The files that a command line asks to be read. -/
def Parsed.sources : Parsed → List Path
  | .run _ request => request.sources
  | _ => []

/-- Whether a command line asks for files to be changed. -/
def Parsed.changesFiles : Parsed → Bool
  | .run _ (.install ..) => true
  | _ => false

/-- Runs the administration command line. A command line that is none of its own ends with the
exit code 2; the text that explains its use is not part of this library. -/
def run (env : Environment) (program : Path) (t : FileTree) (words : List Bytes) :
    FileTree × Response :=
  match parse words with
  | .usageError => (t, ⟨[], [], .exited 2⟩)
  | .help => (t, ⟨[], [], .exited 0⟩)
  | .version => (t, ⟨Bytes.ofText versionLine, [], .exited 0⟩)
  | .run verbosity request =>
    let p := Palette.ofEnvironment env
    let outcome := serve p program t request
    let (filter, warnings) := filterFor env verbosity
    let told := Filter.showWarnings warnings ++ showMessages p filter outcome.told
    match outcome.failure? with
    | none => (outcome.tree, ⟨Bytes.ofText outcome.stdout, told, .exited 0⟩)
    | some failure =>
      (outcome.tree, ⟨Bytes.ofText outcome.stdout, told ++ Bytes.ofText failure.report, .exited 1⟩)

end CompilerWrapper.Admin
