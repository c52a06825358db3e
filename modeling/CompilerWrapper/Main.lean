import CompilerWrapper.Admin
import CompilerWrapper.FileTree.Layout

/-!
# The command line

The administration commands on the files of this machine. The file that a request reads is put
into a file tree with the working directory as its root, the library answers, and the answer is
printed. Requests that would change files need links and permission bits, which are not at hand
here, and are turned down.
-/

namespace CompilerWrapper

/-- The tree with the file that this machine has under a path. What is not there or cannot be read
stays away. -/
def fetch (t : FileTree) (p : Path) : IO FileTree := do
  match ← (IO.FS.readBinFile p.display).toBaseIO with
  | .ok contents =>
    let (_, t) := t.makeParents p
    pure ((t.store p FileTree.newFileMode contents.toList).toOption.getD t)
  | .error (.inappropriateType ..) => pure (t.makeDirectories p).2
  | .error _ => pure t

/-- The variables of the environment that decide about messages. -/
def messageEnvironment : IO Environment :=
  (Admin.filterVariable :: Palette.controls).filterMapM fun name => do
    pure ((← IO.getEnv name).map fun value => (name, .ofText value))

/-- Prints bytes as they are. -/
def print (stream : IO.FS.Stream) (bs : Bytes) : IO Unit := do
  stream.write (ByteArray.mk bs.toArray)
  stream.flush

/-- Runs a command line. -/
def runHere (words : List Bytes) : IO UInt32 := do
  let parsed := Admin.parse words
  if parsed.changesFiles then
    IO.eprintln "Error: files cannot be changed from here"
    return 1
  let t ← parsed.sources.foldlM fetch { nodes := [], here := [] }
  let (_, response) := Admin.run (← messageEnvironment) (.ofText Admin.programName) t words
  print (← IO.getStdout) response.stdout
  print (← IO.getStderr) response.stderr
  return response.ending.status.toUInt32

end CompilerWrapper

def main (words : List String) : IO UInt32 :=
  CompilerWrapper.runHere (words.map CompilerWrapper.Bytes.ofText)
