import CompilerWrapper.FileTree.Change

/-!
# Laying out and listing a file tree

Ways to set up a tree: directories with those above them, and files with given permission bits.
`listing` gives all that stands below a place, in the order of the bytes of the paths.
-/

namespace CompilerWrapper.FileTree

/-- Makes one directory in a directory that is there. -/
def makeDirectory (t : FileTree) (p : Path) : Except Fault FileTree := do
  match ← t.spot p with
  | none => .error .occupied
  | some s =>
    match t.node? s.place with
    | some _ => .error .occupied
    | none => .ok (t.put s.place .directory)

/-- Whether a path leads to a directory. -/
def isDirectory (t : FileTree) (p : Path) : Bool :=
  match t.resolve p with
  | .ok l => t.node? l = some .directory
  | .error _ => false

/-- Makes one directory, unless it is there already. -/
def ensureDirectory (t : FileTree) (p : Path) : Except Fault Unit × FileTree :=
  match t.makeDirectory p with
  | .ok t => (.ok (), t)
  | .error fault => (if t.isDirectory p then .ok () else .error fault, t)

/-- Makes a directory and those above it, so far as they are missing; every directory uses up one
unit of `fuel`. -/
def makeDirectoriesFrom : (fuel : Nat) → FileTree → Path → Except Fault Unit × FileTree
  | 0, t, _ => (.ok (), t)
  | fuel + 1, t, p =>
    if p = [] then (.ok (), t)
    else match t.ensureDirectory p with
      | (.error .notFound, t) =>
        match p.parent? with
        | none => (.error .notFound, t)
        | some dir =>
          match makeDirectoriesFrom fuel t dir with
          | (.ok (), t) => t.ensureDirectory p
          | failed => failed
      | outcome => outcome

/-- Makes a directory and those above it, so far as they are missing. Those that were made stay
where one of them cannot be made. A path is longer than the one above it, so its length bounds
the number of directories. -/
def makeDirectories (t : FileTree) (p : Path) : Except Fault Unit × FileTree :=
  makeDirectoriesFrom (p.length + 1) t p

/-- Makes the directories above a path. -/
def makeParents (t : FileTree) (p : Path) : Except Fault Unit × FileTree :=
  match p.parent? with
  | none => (.ok (), t)
  | some dir => t.makeDirectories dir

/-- Writes a whole file and sets its permission bits. -/
def store (t : FileTree) (p : Path) (mode : Nat) (contents : Bytes) : Except Fault FileTree := do
  let l ← t.openPlace p
  match t.node? l with
  | some (.device _) => .ok t
  | _ => .ok (t.put l (.file mode contents))

/-- The relative path of a list of names. -/
def relativePath (names : List Name) : Path := Path.ofParts names

/-- Whether one string of bytes comes before another or is the same. -/
def bytesLe : Bytes → Bytes → Bool
  | [], _ => true
  | _ :: _, [] => false
  | a :: as, b :: bs => a < b || (a == b && bytesLe as bs)

/-- All that stands below a place, each with its path from there, in the order of the bytes of the
paths. -/
def listing (t : FileTree) (l : Location) : List (Path × Node) :=
  let below := t.nodes.filterMap fun (k, n) =>
    match Text.strip? l k with
    | some (name :: rest) => some (relativePath (name :: rest), n)
    | _ => none
  below.mergeSort fun a b => bytesLe a.1 b.1

end CompilerWrapper.FileTree
