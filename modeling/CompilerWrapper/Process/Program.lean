import CompilerWrapper.Command
import CompilerWrapper.FileTree.Change

/-!
# Programs and the machine that runs them

What a file does when it is run depends on its contents alone. A machine knows which contents are
the wrapper, and what every other program does: it gets a command and a file tree, changes the
tree, and answers with what it printed and how it ended.

`findProgram` says what a command runs. A program is named by its path; a name without a slash
would be looked up in a search path, which is empty here. A script names the program that runs it
in its first line. No word may hold a zero byte, and there is not room for any number of words.
-/

namespace CompilerWrapper

/-- The environment variables of a process. -/
abbrev Environment := List (String × Bytes)

/-- The value of an environment variable. -/
def Environment.get? (env : Environment) (name : String) : Option Bytes := env.lookup name

/-- The value of an environment variable that is UTF-8. -/
def Environment.text? (env : Environment) (name : String) : Option (List Char) := do
  Utf8.decode? (← env.get? name)

/-- What a process printed and how it ended. -/
structure Response where
  stdout : Bytes
  stderr : Bytes
  ending : Ending
deriving DecidableEq, Repr

/-- What a file does when it is run. -/
inductive Program where
  | wrapper
  /-- Any other program, which gets its environment, the command that runs it and the file tree. -/
  | other (respond : Environment → Command → FileTree → FileTree × Response)

/-- What contents do when they are run; most contents are no program. -/
structure Machine where
  load : Bytes → Option Program

/-- Whether the permission bits let anyone run a file. -/
def mayRun (mode : Nat) : Bool := mode.testBit 0 || mode.testBit 3 || mode.testBit 6

/-- The place and the contents of the file that is run under a path. The empty path is the working
directory, which cannot be run. -/
def findFile (t : FileTree) (p : Path) : Except Fault (Location × Bytes) :=
  if p = [] then .error .denied
  else match t.resolve p with
    | .error fault => .error fault
    | .ok l =>
      match t.node? l with
      | some (.file mode contents) => if mayRun mode then .ok (l, contents) else .error .denied
      | _ => .error .denied

/-- The absolute path of a place. -/
def absolutePath (l : Location) : Path := Path.slash :: Path.ofParts l

/-! ### Scripts -/

/-- Whether a byte is a space or a tab. -/
def isSpaceByte (b : UInt8) : Bool := b == 0x20 || b == 0x09

/-- How many bytes at the beginning of a file tell how it is run. A shorter file counts as if zero
bytes followed. -/
def headerLength : Nat := 256

/-- The beginning of a file. -/
def header (contents : Bytes) : Bytes :=
  (contents ++ List.replicate headerLength 0).take headerLength

/-- The line that names the interpreter, out of the header behind `#!`. Where the line does not end
within the header the name of the interpreter has to; the line then goes up to the last byte. -/
def interpreterLine? (rest : Bytes) : Option Bytes :=
  let line := rest.takeWhile fun b => b != 0x0A && b != 0
  if rest[line.length]? = some 0x0A then some line
  else if (rest.dropWhile isSpaceByte).any fun b => isSpaceByte b || b == 0 then some rest.dropLast
  else none

/-- The interpreter that the first line of a script names after `#!`, and the one argument that
may stand behind it. A zero byte ends either. -/
def interpreter? (contents : Bytes) : Option (Path × List Bytes) := do
  let rest ← Text.strip? [0x23, 0x21] (header contents)
  let line := (← interpreterLine? rest).dropWhile isSpaceByte
  let line := (line.reverse.dropWhile isSpaceByte).reverse
  let program := line.takeWhile fun b => !isSpaceByte b && b != 0
  match line, line.drop program.length with
  | [], _ => none
  | _, b :: after =>
    if b = 0 then some (program, [])
    else some (program, [(after.dropWhile isSpaceByte).takeWhile (· != 0)])
  | _, [] => some (program, [])

/-! ### The words of a call -/

/-- How long a word of a call may be, with the byte that ends it. -/
def wordLimit : Nat := Nat.pow 2 17

/-- How much room there is for the words of a call and of the environment. -/
def roomLimit : Nat := Nat.pow 2 21

/-- The words that a process is given: its name and arguments, and the variables of its
environment. -/
def startWords (env : Environment) (c : Command) : List Bytes :=
  c.arg0 :: c.args ++ env.map fun (name, value) => Bytes.ofText (name ++ "=") ++ value

/-- Whether a zero byte stands in the path of the program or in a word that the process is given. It
would end the word, so no process is started with it. -/
def holdsZero (env : Environment) (c : Command) : Bool :=
  (c.program :: startWords env c).any (·.contains 0)

/-- Whether a process can be given its words. Each takes room for a byte at its end and for the
eight bytes of its address; the path of the program takes room as well. -/
def startFits (env : Environment) (c : Command) : Bool :=
  let words := startWords env c
  words.all (fun word => word.length + 1 ≤ wordLimit) &&
    words.foldl (fun room word => room + (word.length + 9)) (c.program.length + 1) ≤ roomLimit

/-! ### From a command to a program -/

/-- How many scripts may lead on from one to the other, each with the program that it names. -/
def scriptLimit : Nat := 6

/-- What is run in the end: the program, the place of its file, and the command as it sees it. -/
structure Image where
  program : Program
  place : Location
  command : Command

/-- The program behind a file; fewer than `scripts` scripts may lead to it. A script is run by its
interpreter, which gets the path of the script and then the script's arguments. -/
def findImage (m : Machine) (env : Environment) (t : FileTree) :
    (scripts : Nat) → Command → Except Fault Image
  | scripts, c =>
    match findFile t c.program with
    | .error fault => .error fault
    | .ok (place, contents) =>
      if !startFits env c then .error .argumentsTooLong
      else match scripts with
        | 0 => .error .loop
        | scripts + 1 =>
          match m.load contents, interpreter? contents with
          | some program, _ => .ok ⟨program, place, c⟩
          | none, none => .error .notExecutable
          | none, some (program, options) =>
            findImage m env t scripts ⟨program, program, options ++ c.program :: c.args⟩

/-- The program that a command runs in an environment. The words are looked at first. -/
def findProgram (m : Machine) (env : Environment) (t : FileTree) (c : Command) :
    Except Fault Image :=
  if holdsZero env c then .error .zeroInWord
  else if Path.slash ∈ c.program then findImage m env t scriptLimit c
  else .error .notFound

end CompilerWrapper
