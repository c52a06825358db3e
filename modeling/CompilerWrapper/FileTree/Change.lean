import CompilerWrapper.FileTree.Walk

/-!
# Reading and changing a file tree

Each operation is one step: it is refused with a fault and changes nothing, or it gives the tree
after it. Removing, moving and linking work on the entry that the path names, and never on what a
link under that name leads to. Writing goes through links.
-/

namespace CompilerWrapper.FileTree

/-- The permission bits of a new file. -/
def newFileMode : Nat := 0o644

/-- The permission bits of a file after something was written to it: it loses the bit that runs it
with its owner's rights, and, if its group may run it, the bit that runs it with its group's. -/
def modeAfterWrite (mode : Nat) : Nat :=
  let mode := if mode.testBit 11 then mode - 0o4000 else mode
  if mode.testBit 10 ∧ mode.testBit 3 then mode - 0o2000 else mode

/-- The permission bits of a file to which `contents` are added. -/
def modeAfterAdding (mode : Nat) (contents : Bytes) : Nat :=
  if contents = [] then mode else modeAfterWrite mode

/-- The contents of the file that a path leads to. -/
def read (t : FileTree) (p : Path) : Except Fault Bytes := do
  match t.node? (← t.resolve p) with
  | some (.file _ contents) => .ok contents
  | some .directory => .error .isDirectory
  | _ => .ok []

/-- Opens a file for adding to its end, and makes an empty one if there is none. -/
def openForAppend (t : FileTree) (p : Path) : Except Fault (Location × FileTree) := do
  let l ← t.openPlace p
  match t.node? l with
  | none => .ok (l, t.put l (.file newFileMode []))
  | some _ => .ok (l, t)

/-- Locks the open file at a place, which nobody else has locked. -/
def lock (t : FileTree) (l : Location) : Except Fault Unit :=
  match t.unlockable.lookup l with
  | none => .ok ()
  | some fault => .error fault.val

/-- Adds to the end of the open file at a place. -/
def append (t : FileTree) (l : Location) (added : Bytes) : Except Fault FileTree :=
  match t.node? l with
  | some (.file mode contents) =>
    .ok (t.put l (.file (modeAfterAdding mode added) (contents ++ added)))
  | some (.device .full) => if added = [] then .ok t else .error .noSpace
  | _ => .ok t

/-- Removes the entry under a path, which may not be a directory. -/
def unlink (t : FileTree) (p : Path) : Except Fault FileTree := do
  match ← t.spot p with
  | none => .error .isDirectory
  | some s =>
    match t.node? s.place with
    | none => .error .notFound
    | some .directory => .error .isDirectory
    | some _ => if s.slash then .error .notDirectory else .ok (t.remove s.place)

/-- Makes a symbolic link under a path. -/
def symlink (t : FileTree) (target p : Path) : Except Fault FileTree := do
  -- A zero byte in either path is found before the system sees the other one.
  checkBytes p
  checkPath target
  match ← t.spot p with
  | none => .error .occupied
  | some s =>
    match t.node? s.place with
    | some _ => .error .occupied
    | none => if s.slash then .error .notFound else .ok (t.put s.place (.link target))

/-- Moves the entry under `source` to `target`, in the place of a file or an empty directory that
is there. -/
def rename (t : FileTree) (source target : Path) : Except Fault FileTree := do
  checkBytes target
  match ← t.spot source, ← t.spot target with
  | some s, some d =>
    match t.node? s.place with
    | none => .error .notFound
    | some .directory =>
      if s.place.isPrefixOf d.dir then .error .invalid
      else if d.place.isPrefixOf s.dir then .error .notEmpty
      else if s.place = d.place then .ok t
      else match t.node? d.place with
        | none => .ok (t.move s.place d.place)
        | some .directory =>
          if t.isOccupied d.place then .error .notEmpty else .ok (t.move s.place d.place)
        | some _ => .error .notDirectory
    | some n =>
      if s.slash ∨ d.slash then .error .notDirectory
      else if d.place.isPrefixOf s.dir then .error .notEmpty
      else if s.place = d.place then .ok t
      else match t.node? d.place with
        | some .directory => .error .isDirectory
        | _ => .ok ((t.remove s.place).put d.place n)
  | _, _ => .error .busy

/-- Copies the file that `source` leads to under `target`, with its permission bits. -/
def copy (t : FileTree) (source target : Path) : Except Fault FileTree := do
  match t.node? (← t.resolve source) with
  | some (.file mode contents) =>
    let l ← t.openPlace target
    match t.node? l with
    | some (.device .full) => if contents = [] then .ok t else .error .noSpace
    | some (.device .null) => .ok t
    | _ => .ok (t.put l (.file (modeAfterAdding mode contents) contents))
  | _ => .error .notRegular

end CompilerWrapper.FileTree
