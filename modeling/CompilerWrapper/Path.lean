import CompilerWrapper.Text.Utf8

/-!
# Paths

A path is a string of bytes in which `/` separates names. It is kept as it was written: nothing is
normalised, and two spellings of one place stay two paths. Only the questions asked of a path look
past the spelling. A *component* of a path is a part between slashes that is neither empty nor a
single dot; a dot counts where a relative path begins with it, because without it the path would
be empty.

* `join` puts a path below a directory; an absolute path is not below anything and stays as it is.
* `fileName?` is the last component, unless it is `..`; `parent?` is the path without it.
* `stem?` is the file name without its extension; a leading dot begins no extension.
-/

namespace CompilerWrapper

/-- A path, as bytes. -/
abbrev Path := Bytes

/-- A name in a directory. -/
abbrev Name := Bytes

namespace Path

/-- The byte that separates names. -/
def slash : UInt8 := 0x2F

/-- The byte that begins an extension. -/
def dot : UInt8 := 0x2E

/-- The name of a directory in itself. -/
def here : Name := [dot]

/-- The name in a directory of the directory above it. -/
def above : Name := [dot, dot]

/-- Whether the path starts at the root. -/
def isAbsolute (p : Path) : Bool := p.head? == some slash

/-- The parts of a path between its slashes, empty ones included. -/
def parts (p : Path) : List Bytes := p.splitOn slash

/-- The path with the given parts. -/
def ofParts (parts : List Bytes) : Path := [slash].intercalate parts

/-- The path `p` below the directory `dir`. -/
def join (dir p : Path) : Path :=
  if p.isAbsolute then p
  else if dir.isEmpty || dir.getLast? == some slash then dir ++ p
  else dir ++ slash :: p

/-- Drops the parts at the end of a path that are no components; the parts are given last first,
and the first part of the path always stays. -/
def dropBlankParts : List Bytes → List Bytes
  | last :: next :: rest =>
    if last = [] ∨ last = here then dropBlankParts (next :: rest) else last :: next :: rest
  | parts => parts

/-- The components of the path as far back as the last one, last first. -/
def ending (p : Path) : List Bytes := dropBlankParts p.parts.reverse

/-- The name of the file that the path leads to. -/
def fileName? (p : Path) : Option Name :=
  match p.ending with
  | [] => none
  | [only] => if only ∈ [[], here, above] then none else some only
  | last :: _ => if last = above then none else some last

/-- The path without its last component; the root and the empty path have none. -/
def parent? (p : Path) : Option Path :=
  match p.ending with
  | [] => none
  | [only] => if only = [] then none else some []
  | _ :: rest =>
    match dropBlankParts rest with
    | [[]] => some [slash]
    | rest => some (ofParts rest.reverse)

/-- Cuts a name at its last dot: what stands before the dot and what stands after it. -/
def cutExtension? (name : Name) : Option (Name × Name) :=
  let backward := name.reverse
  let extension := backward.takeWhile (· != dot)
  if extension.length = name.length then none
  else some ((backward.drop (extension.length + 1)).reverse, extension.reverse)

/-- The file name without its extension. -/
def stem? (p : Path) : Option Name :=
  p.fileName?.map fun name =>
    match cutExtension? name with
    | none | some ([], _) => name
    | some (before, _) => before

/-- The path as text for a message. -/
def display (p : Path) : String := p.toText

end Path

end CompilerWrapper
