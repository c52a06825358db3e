import CompilerWrapper.Process.Shell

/-!
# Scripted compilers

To run the wrapper and see what it does, compilers are wanted whose behaviour is known. This module
has them, for such runs alone: what is proved of the wrapper is proved for every machine.

A scripted compiler prints fixed bytes and ends in a fixed way, and writes down how it was called:
it adds a line with its arguments to a file beside the path under which it was run.

Its file holds its script: a first line that tells what it is, and then its parts, each with its
length in front, so that every byte can stand in them. `machine` runs such files, and takes lines
of their own for the wrapper and the shell.
-/

namespace CompilerWrapper

/-- What a scripted compiler is called, prints, and how it ends. -/
structure Script where
  name : Bytes
  stdout : Bytes
  stderr : Bytes
  ending : Ending
deriving DecidableEq, Repr

namespace Script

/-- The contents of the file of the wrapper. -/
def wrapperImage : Bytes := Bytes.ofText "\x7fwrapper\n" ++ [0xFF]

/-- The contents of the file of the shell. -/
def shellImage : Bytes := Bytes.ofText "\x7fshell\n" ++ [0xFF]

/-- The first line of a script. -/
def opening : Bytes := Bytes.ofText "\x7fscript\n" ++ [0xFF]

/-- A part of a script, with its length in front. -/
def encodePart (part : Bytes) : Bytes :=
  Bytes.ofText (toString part.length) ++ [0x3A] ++ part

/-- The part at the front of a script, and what follows. -/
def decodePart? (bs : Bytes) : Option (Bytes × Bytes) := do
  let digits := bs.takeWhile (· != 0x3A)
  let length ← (Bytes.toText digits).toNat?
  let rest := bs.drop (digits.length + 1)
  if rest.length < length then none else some (rest.splitAt length)

/-- The ending as a part. -/
def encodeEnding : Ending → Bytes
  | .exited code => Bytes.ofText (toString (2 * code))
  | .killed signal => Bytes.ofText (toString (2 * signal + 1))

/-- The ending that a part spells. -/
def decodeEnding? (part : Bytes) : Option Ending := do
  let n ← (Bytes.toText part).toNat?
  if n % 2 = 0 then some (.exited (n / 2)) else some (.killed (n / 2))

/-- The contents of the file of a scripted compiler. -/
def encode (s : Script) : Bytes :=
  opening ++ encodePart s.name ++ encodePart s.stdout ++ encodePart s.stderr ++
    encodePart (encodeEnding s.ending)

/-- The script that contents spell. -/
def decode? (contents : Bytes) : Option Script := do
  let rest ← Text.strip? opening contents
  let (name, rest) ← decodePart? rest
  let (stdout, rest) ← decodePart? rest
  let (stderr, rest) ← decodePart? rest
  let (ending, _) ← decodePart? rest
  pure ⟨name, stdout, stderr, ← decodeEnding? ending⟩

/-- The path of the file beside a program in which its calls are written down. -/
def recordPath (p : Path) : Path := p ++ Bytes.ofText ".args"

/-- The line about a call: the number of arguments, and each argument in angle brackets. -/
def recordLine (args : List Bytes) : Bytes :=
  Bytes.ofText (toString args.length) ++
    args.flatMap (fun arg => Bytes.ofText " <" ++ arg ++ Bytes.ofText ">") ++ Bytes.ofText "\n"

/-- The tree with the call written down. -/
def record (t : FileTree) (c : Command) : FileTree :=
  match t.openForAppend (recordPath c.program) with
  | .error _ => t
  | .ok (l, opened) => (opened.append l (recordLine c.args)).toOption.getD opened

/-- What a scripted compiler does with a call. -/
def respond (s : Script) (c : Command) (t : FileTree) : FileTree × Response :=
  (record t c, ⟨s.stdout, s.stderr, s.ending⟩)

/-- The machine that knows the wrapper, the shell and scripted compilers. -/
def machine : Machine where
  load contents :=
    if contents = wrapperImage then some .wrapper
    else if contents = shellImage then some (.other fun _ => Shell.respond)
    else (decode? contents).map fun s => .other fun _ => s.respond

end Script

end CompilerWrapper
