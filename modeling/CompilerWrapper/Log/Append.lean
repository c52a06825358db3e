import CompilerWrapper.Failure
import CompilerWrapper.FileTree.Change
import CompilerWrapper.Log.Reading

/-!
# Adding to the diagnostics log

An entry is added in three steps: the log is opened, and made if there is none; its lock is taken,
so that many wrappers can share one log; and the whole block of the entry is written at its end.
-/

namespace CompilerWrapper.Log

/-- Opens a log for adding to it. -/
def openAt (t : FileTree) (p : Path) : Except Failure (Location × FileTree) :=
  (t.openForAppend p).mapError (.refused (.openingLog p))

/-- Takes the lock on the opened log. -/
def lock (t : FileTree) (p : Path) (place : Location) : Except Failure Unit :=
  (t.lock place).mapError (.refused (.lockingLog p))

/-- Writes the block of an entry at the end of the opened and locked log. -/
def write (t : FileTree) (p : Path) (place : Location) (e : Entry) : Except Failure FileTree :=
  (t.append place e.render).mapError (.refused (.writingLog p))

/-- Adds an entry to a log. A log that was made stays where the entry cannot be written. -/
def append (t : FileTree) (p : Path) (e : Entry) : Except Failure Unit × FileTree :=
  match openAt t p with
  | .error failure => (.error failure, t)
  | .ok (place, t) =>
    match (do lock t p place; write t p place e) with
    | .error failure => (.error failure, t)
    | .ok t => (.ok (), t)

/-- The entries of the log under a path. -/
def read (t : FileTree) (p : Path) : Except Failure (List Entry) :=
  ((t.read p).mapError (.refused (.readingLog p))).map entries

end CompilerWrapper.Log
