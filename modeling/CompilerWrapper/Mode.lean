import CompilerWrapper.Path
import CompilerWrapper.Text.Literal

/-!
# Whether diagnostics are captured

The environment of the build decides: without a log file the wrapper becomes the real compiler;
with one it captures what the real compiler prints on standard error.
-/

namespace CompilerWrapper

/-- What the wrapper does with the real compiler. -/
inductive Mode where
  /-- It becomes the real compiler. -/
  | direct
  /-- It runs the real compiler, adds its standard error to `log`, and hands over to the compiler
  in `prebuilt` if the real one fails. -/
  | capture (log : Path) (prebuilt : Option Path)
deriving DecidableEq, Repr

/-- The mode that the two environment variables choose. The second one matters only if the first
one is set. -/
def Mode.ofVariables (redirect prebuilt : Option Bytes) : Mode :=
  match redirect with
  | none => .direct
  | some log => .capture log prebuilt

/-- The mode in words, with its paths as literals. -/
def Mode.describe : Mode → String
  | .direct => "Direct"
  | .capture log prebuilt =>
    let dir := match prebuilt with
      | none => "None"
      | some dir => s!"Some({Text.literal dir})"
    s!"Capture \x7b log_path: {Text.literal log}, prebuilt_dir: {dir} \x7d"

end CompilerWrapper
