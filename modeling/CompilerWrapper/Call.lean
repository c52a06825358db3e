import CompilerWrapper.Command
import CompilerWrapper.Failure

/-!
# One call of the wrapper

The wrapper stands where a compiler used to be, under the compiler's name, and is called as if it
were that compiler. Its own path decides everything: the real compiler is beside it under the same
path with `.real` added, and the prebuilt compiler has the same file name in another directory.
What the caller passes as the program's name is handed on and decides nothing.
-/

namespace CompilerWrapper

/-- What is added to the name of a compiler that was moved aside. -/
def realSuffix : String := ".real"

/-- A name or a path with the suffix of a real compiler. -/
def withRealSuffix (name : Bytes) : Bytes := name ++ Bytes.ofText realSuffix

/-- One call of the wrapper. -/
structure Call where
  /-- The program's name as the caller gave it. -/
  name : Bytes
  args : List Bytes
  /-- The path of the wrapper. -/
  wrapper : Path
deriving DecidableEq, Repr

namespace Call

/-- The call with the given command line, which has to have a first word. -/
def ofWords (words : List Bytes) (wrapper : Path) : Except Failure Call :=
  match words with
  | [] => .error .emptyCommandLine
  | name :: args => .ok ⟨name, args, wrapper⟩

/-- The name of the tool that the wrapper stands in for. -/
def tool (c : Call) : Except Failure Name :=
  match c.wrapper.fileName? with
  | none => .error (.noFileName c.wrapper)
  | some name => .ok name

/-- The directory of the wrapper. -/
def dir (c : Call) : Path := c.wrapper.parent?.getD [Path.slash]

/-- The path of the real compiler. -/
def realPath (c : Call) : Path := withRealSuffix c.wrapper

/-- The name that the real compiler sees as its own when it takes the wrapper's place. -/
def realName (c : Call) : Bytes := withRealSuffix c.name

/-- The path of the prebuilt compiler in the directory `prebuilt`. -/
def prebuiltPath (c : Call) (prebuilt : Path) : Except Failure Path := do
  pure (prebuilt.join (← c.tool))

end Call

end CompilerWrapper
