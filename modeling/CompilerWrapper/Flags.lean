import CompilerWrapper.Failure
import CompilerWrapper.FileTree.Change
import CompilerWrapper.Message
import CompilerWrapper.Toml.Document

/-!
# The flags added to compiler calls

Two lists of flags are added to the calls of the real compiler: those that switch colours off,
where its output is captured, and those that keep new warnings from being errors, always. Both
have built-in values, and a file beside the wrapper can replace either. Keys that the file has
beyond these two mean nothing here; a key that has a value of the wrong kind makes the whole file
invalid.
-/

namespace CompilerWrapper

/-- The flags added to the calls of the real compiler. -/
structure Flags where
  /-- Added where standard error is captured. -/
  noColor : List String
  /-- Added to every call. -/
  demoted : List String
deriving DecidableEq, Repr

namespace Flags

/-- The built-in flags. -/
def builtIn : Flags where
  noColor := ["-fno-color-diagnostics"]
  demoted := ["-Wno-error=zero-as-null-pointer-constant", "-Wno-error=unknown-warning-option"]

/-- The flags added when the wrapper becomes the real compiler. -/
def direct (f : Flags) : List String := f.demoted

/-- The flags added when standard error is captured. -/
def capture (f : Flags) : List String := f.noColor ++ f.demoted

/-- The name of the file with the flags. -/
def fileName : String := "ccwrap.toml"

/-- The key of the flags that switch colours off. -/
def noColorKey : String := "no_color_flags"

/-- The key of the flags that keep warnings from being errors. -/
def demotedKey : String := "disabled_warnings"

/-- The strings of an array that holds nothing else. -/
def strings? : Toml.Value → Option (List String)
  | .array items => items.mapM fun item => match item with
    | .string s => some s
    | _ => none
  | _ => none

/-- The list under a key, or `default` where the key is missing. -/
def list? (entries : Toml.Entries) (key : String) (default : List String) : Option (List String) :=
  match entries.get? key with
  | none => some default
  | some value => strings? value

/-- The flags that a table spells. -/
def ofEntries? (entries : Toml.Entries) : Option Flags := do
  let noColor ← list? entries noColorKey builtIn.noColor
  let demoted ← list? entries demotedKey builtIn.demoted
  pure ⟨noColor, demoted⟩

/-- The flags that a document spells. -/
def parse (text : List Char) : Except Toml.Flaw Flags := do
  match ofEntries? (← Toml.Entries.parse text) with
  | none => .error .malformed
  | some flags => .ok flags

/-- The flags in the file under a path, if there is something under it. -/
def load (t : FileTree) (p : Path) : Except Failure (Option Flags) :=
  if t.isPresent p then
    match t.read p with
    | .error fault => .error (.refused (.readingFlags p) fault)
    | .ok contents =>
      match Utf8.decode? contents with
      | none => .error (.refused (.readingFlags p) .notText)
      | some text => ((parse text).mapError (.invalidFlags p)).map some
  else .ok none

/-- The flags for a wrapper in the directory `dir`, and what is told about them. -/
def resolve (t : FileTree) (dir : Path) : Except Failure (Flags × List Message) := do
  let p := dir.join (.ofText fileName)
  match ← load t p with
  | some flags => pure (flags, [⟨.debug, .flags, s!"using flags from `{p.display}`"⟩])
  | none => pure (builtIn, [])

end Flags

end CompilerWrapper
