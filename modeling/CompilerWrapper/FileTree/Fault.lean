/-!
# Why the file system refuses

A fault is the reason for which an operation on files is refused. Most faults have a number and a
fixed wording; those that the caller finds by itself, in what it was given or in what it read, have
a wording only.
-/

namespace CompilerWrapper

/-- A reason for which an operation on files is refused. -/
inductive Fault where
  /-- There is nothing under the name. -/
  | notFound
  /-- The words that a program is given are too long. -/
  | argumentsTooLong
  /-- The file holds no program in a known form. -/
  | notExecutable
  /-- What is asked for is taken for the moment. -/
  | unavailable
  /-- The file may not be used in this way. -/
  | denied
  /-- The place may not be moved. -/
  | busy
  /-- There is something under the name already. -/
  | occupied
  /-- A part of the path that is gone through is no directory. -/
  | notDirectory
  | isDirectory
  /-- A directory would end up inside itself. -/
  | invalid
  /-- The file is a program that is running. -/
  | programRunning
  | noSpace
  | nameTooLong
  | notEmpty
  /-- Too many symbolic links follow each other. -/
  | loop
  /-- Only a regular file can be copied. -/
  | notRegular
  /-- The file was read as text and is not UTF-8. -/
  | notText
  /-- A path holds a zero byte, which would end it. -/
  | zeroInPath
  /-- A word that a program is to be given holds a zero byte, which would end it. -/
  | zeroInWord
deriving DecidableEq, Repr

namespace Fault

/-- The number and the wording of the faults that the system reports. -/
def system? : Fault → Option (Nat × String)
  | notFound => some (2, "No such file or directory")
  | argumentsTooLong => some (7, "Argument list too long")
  | notExecutable => some (8, "Exec format error")
  | unavailable => some (11, "Resource temporarily unavailable")
  | denied => some (13, "Permission denied")
  | busy => some (16, "Device or resource busy")
  | occupied => some (17, "File exists")
  | notDirectory => some (20, "Not a directory")
  | isDirectory => some (21, "Is a directory")
  | invalid => some (22, "Invalid argument")
  | programRunning => some (26, "Text file busy")
  | noSpace => some (28, "No space left on device")
  | nameTooLong => some (36, "File name too long")
  | notEmpty => some (39, "Directory not empty")
  | loop => some (40, "Too many levels of symbolic links")
  | notRegular | notText | zeroInPath | zeroInWord => none

/-- The fault in words. -/
def message (f : Fault) : String :=
  match f.system?, f with
  | some (number, text), _ => s!"{text} (os error {number})"
  | none, notRegular =>
    "the source path is neither a regular file nor a symlink to a regular file"
  | none, zeroInPath => "file name contained an unexpected NUL byte"
  | none, zeroInWord => "nul byte found in provided data"
  | none, _ => "stream did not contain valid UTF-8"

/-- Whether a lock was refused because somebody else has it, so that it is worth asking again. -/
def isContention (f : Fault) : Bool := f = unavailable ∨ f = denied

end Fault

end CompilerWrapper
