import CompilerWrapper.FileTree.Fault
import CompilerWrapper.Path
import CompilerWrapper.Toml.Value

/-!
# What can go wrong

A failure is the reason for which an operation of the wrapper is given up. Where the file system
refused something, the failure tells what was being done and why it was refused; the wording keeps
the two apart as a summary and a cause.
-/

namespace CompilerWrapper

/-- The environment variable with the log file. Where it is set, diagnostics are captured. -/
def redirectVariable : String := "ANDROID_LLVM_STDERR_REDIRECT"

/-- The environment variable with the directory of the prebuilt compilers. -/
def prebuiltVariable : String := "ANDROID_LLVM_PREBUILT_COMPILER_PATH"

/-- What was being done when the file system refused. -/
inductive Activity where
  | readingFlags (p : Path)
  | openingLog (p : Path)
  | lockingLog (p : Path)
  | writingLog (p : Path)
  | readingLog (p : Path)
  | moving (p : Path)
  | removing (p : Path)
  | linking (p : Path)
  | copying (source target : Path)
  | running (p : Path)
deriving DecidableEq, Repr

/-- The activity in words. -/
def Activity.describe : Activity → String
  | readingFlags p => s!"failed to read file at `{p.display}`"
  | openingLog p => s!"opening log `{p.display}`"
  | lockingLog p => s!"locking log `{p.display}`"
  | writingLog p => s!"writing to log `{p.display}`"
  | readingLog p => s!"reading log `{p.display}`"
  | moving p => s!"moving `{p.display}` out of the way"
  | removing p => s!"removing `{p.display}`"
  | linking p => s!"linking `{p.display}`"
  | copying source target => s!"copying `{source.display}` to `{target.display}`"
  | running p => s!"running `{p.display}`"

/-- The reason for which an operation is given up. -/
inductive Failure where
  /-- The file system refused something. -/
  | refused (activity : Activity) (fault : Fault)
  /-- The file with the flags is not TOML, or gives a flag list a value of another kind. -/
  | invalidFlags (p : Path) (flaw : Toml.Flaw)
  /-- A process was started without even a name of its own. -/
  | emptyCommandLine
  /-- The path of the wrapper names no file, so it stands in for no tool. -/
  | noFileName (p : Path)
  /-- The real compiler failed, and no prebuilt compilers are known. -/
  | noPrebuilt
  /-- A text that should be `NAME=TARGET` is not. -/
  | malformedAlias (text : String)
  /-- There is neither a tool nor its real compiler. -/
  | missingTool (tool real : Path)
  /-- An alias points at a name that is not among the tools. -/
  | unwrappedTarget (name target : String)
deriving DecidableEq, Repr

namespace Failure

/-- What went wrong, in words. -/
def summary : Failure → String
  | refused activity _ => activity.describe
  | invalidFlags p _ => s!"failed to parse TOML in `{p.display}`"
  | emptyCommandLine => "empty argument vector"
  | noFileName p => s!"wrapper path `{p.display}` has no file name"
  | noPrebuilt => s!"the real compiler failed and {prebuiltVariable} is not set"
  | malformedAlias text => s!"expected NAME=TARGET, got `{text}`"
  | missingTool tool real => s!"neither `{tool.display}` nor `{real.display}` exists"
  | unwrappedTarget name target =>
    s!"alias `{name}` points at `{target}`, which is not being wrapped"

/-- Why it went wrong, in words, where there is more to say. Of the flaws of a file with flags the
report names only one, which lies at no place in the file. -/
def cause? : Failure → Option String
  | refused _ fault => some fault.message
  | invalidFlags _ .keyTooLong => some "recursion limit\n"
  | _ => none

/-- A text with every line moved to the right. -/
def indent (text : String) : String :=
  "\n".intercalate ((text.toList.splitOn '\n').map fun line => "    " ++ String.ofList line)

/-- The failure as a process reports it when it gives up. -/
def report (f : Failure) : String :=
  match f.cause? with
  | none => s!"Error: {f.summary}\n"
  | some cause => s!"Error: {f.summary}\n\nCaused by:\n{indent cause}\n"

end Failure

end CompilerWrapper
