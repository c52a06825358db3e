import CompilerWrapper.Message
import CompilerWrapper.Process.Program
import CompilerWrapper.Text.Terminal

/-!
# Colours and messages

Output is in colour only if the environment asks for it. On standard output the request to force
colours wins over the request for none, on standard error it is the other way round; there a style
that is asked for by its name wins over both.
-/

namespace CompilerWrapper

/-- Which of the two outputs may be in colour. -/
structure Palette where
  stdout : Bool
  stderr : Bool
deriving DecidableEq, Repr

namespace Palette

/-- The environment variable that asks for no colours. -/
def noColor : String := "NO_COLOR"

/-- The environment variable that asks for colours in any case. -/
def forceColor : String := "CLICOLOR_FORCE"

/-- The environment variable with the name of the style of messages. -/
def messageStyle : String := "RUST_LOG_STYLE"

/-- The environment variables that decide about colours. -/
def controls : List String := [noColor, forceColor, messageStyle]

/-- Whether a style that is asked for by its name is in colour; other names ask for none. -/
def styleOfName? (name : List Char) : Option Bool :=
  match String.ofList name with
  | "always" => some true
  | "never" => some false
  | _ => none

/-- The colours that the environment asks for. -/
def ofEnvironment (env : Environment) : Palette where
  stdout := match env.text? forceColor with
    | none => false
    | some text => text != ['0']
  stderr := ((env.text? messageStyle).bind styleOfName?).getD
    ((env.get? noColor).getD [] == [] && (env.get? forceColor).getD [] != [])

/-- A text on standard output, in a style if there are colours. -/
def styled (p : Palette) (s : Text.Style) (text : String) : String :=
  if p.stdout then Text.paint s text else text

/-- A message line on standard error. Without colours, control sequences are taken out of it. -/
def line (p : Palette) (text : String) : Bytes :=
  let line := Bytes.ofText (text ++ "\n")
  if p.stderr then line else Text.strip line

end Palette

end CompilerWrapper
