import CompilerWrapper.FileTree.Basic

/-!
# From a path to a place

A path is walked name by name, from the root if it is absolute and from the working directory
otherwise. A link on the way is replaced by its target, at most `linkLimit` times. A slash at the
end of a path asks for a directory, and is walked as if a dot followed it.

Three walks differ in what they do with the last name. `resolve` follows it if it is a link, and
there has to be something at the end. `spot` stops before it: that is where an entry is made,
removed or moved. `openPlace` follows links too, but the file at the end may be missing, because it
is going to be written.
-/

namespace CompilerWrapper.FileTree

/-- How many links one walk follows. -/
def linkLimit : Nat := 40

/-- The longest name, in bytes. -/
def nameLimit : Nat := 255

/-- The length, in bytes, that a path has to stay below. -/
def pathLimit : Nat := 4096

/-- The names on a path. -/
def names (p : Path) : List Name := p.parts.filter (· ≠ [])

/-- Whether a path ends in a slash. -/
def endsInSlash (p : Path) : Bool := p.getLast? == some Path.slash

/-- The names to be walked for a path. -/
def steps (p : Path) : List Name :=
  if endsInSlash p then names p ++ [Path.here] else names p

/-- The place where the walk of a path begins that is read in the directory `dir`. -/
def origin (dir : Location) (p : Path) : Location := if p.isAbsolute then [] else dir

/-- Where a walk halts: at its end, or before a link with names still to be walked. -/
inductive Halt where
  | reached (l : Location)
  | link (dir : Location) (target : Path) (todo : List Name)

/-- Walks names from a place until they are used up or a link is met. -/
def advance (t : FileTree) (l : Location) : List Name → Except Fault Halt
  | [] => .ok (.reached l)
  | name :: todo =>
    match t.node? l with
    | none => .error .notFound
    | some .directory =>
      if name = Path.here then advance t l todo
      else if name = Path.above then advance t l.dropLast todo
      else if nameLimit < name.length then .error .nameTooLong
      else match t.node? (l ++ [name]) with
        | none => .error .notFound
        | some (.link target) => .ok (.link l target todo)
        | some _ => advance t (l ++ [name]) todo
    | some _ => .error .notDirectory

/-- Walks names from a place, going through at most `links` links. Gives the place and how many
links may still follow. -/
def follow (t : FileTree) : (links : Nat) → Location → List Name → Except Fault (Location × Nat)
  | links, l, todo =>
    match advance t l todo with
    | .error fault => .error fault
    | .ok (.reached l) => .ok (l, links)
    | .ok (.link dir target todo) =>
      match links with
      | 0 => .error .loop
      | links + 1 => follow t links (origin dir target) (steps target ++ todo)

/-- Refuses a path with a zero byte, which ends a path where the system reads it. -/
def checkBytes (p : Path) : Except Fault Unit := if 0 ∈ p then .error .zeroInPath else .ok ()

/-- Refuses a path with a zero byte, the empty path and a path that is too long. -/
def checkPath (p : Path) : Except Fault Unit := do
  checkBytes p
  if p = [] then .error .notFound
  else if pathLimit ≤ p.length then .error .nameTooLong
  else .ok ()

/-- The place that a path leads to through all links. Something stands there. -/
def resolve (t : FileTree) (p : Path) : Except Fault Location := do
  checkPath p
  let (l, _) ← follow t linkLimit (origin t.here p) (steps p)
  pure l

/-- The last name of a path in its directory. -/
structure Spot where
  dir : Location
  name : Name
  /-- Whether the name was followed by a slash. -/
  slash : Bool

/-- The place of a spot. -/
def Spot.place (s : Spot) : Location := s.dir ++ [s.name]

/-- The spot of a path that is read in the directory `start`, with at most `links` links on the
way to it, and how many links may still follow; `none` if the path ends at the root or in one or
two dots, and so names no entry. -/
def spotFrom (t : FileTree) (links : Nat) (start : Location) (p : Path) :
    Except Fault (Option Spot × Nat) := do
  checkPath p
  let way := (names p).dropLast
  let (dir, left) ← follow t links (origin start p) (way ++ [Path.here])
  match (names p).getLast? with
  | none => .ok (none, left)
  | some name =>
    if name = Path.here ∨ name = Path.above then .ok (none, left)
    else if nameLimit < name.length then .error .nameTooLong
    else .ok (some ⟨dir, name, endsInSlash p⟩, left)

/-- The spot of a path. -/
def spot (t : FileTree) (p : Path) : Except Fault (Option Spot) := do
  let (s, _) ← spotFrom t linkLimit t.here p
  pure s

/-- The place of the file that is opened for writing under a path. There may be nothing at the
place yet. The whole walk goes through at most `links` links, and through at most `ends` of those
as the last name of a path. -/
def openPlaceFrom (t : FileTree) :
    (ends links : Nat) → (start : Location) → Path → Except Fault Location
  | ends, links, start, p =>
    match spotFrom t links start p with
    | .error fault => .error fault
    | .ok (none, _) => .error .isDirectory
    | .ok (some s, left) =>
      if s.slash then .error .isDirectory
      else match t.node? s.place with
        | none => .ok s.place
        | some .directory => .error .isDirectory
        | some (.link target) =>
          match ends, left with
          | ends + 1, left + 1 => openPlaceFrom t ends left s.dir target
          | _, _ => .error .loop
        | some _ => if s.place ∈ t.running then .error .programRunning else .ok s.place

/-- The place of the file that is opened for writing under a path. -/
def openPlace (t : FileTree) (p : Path) : Except Fault Location :=
  openPlaceFrom t linkLimit linkLimit t.here p

/-- Whether a path leads to something, through all links. -/
def isPresent (t : FileTree) (p : Path) : Bool := (t.resolve p).isOk

/-- Whether there is an entry under a path, be it a link that leads nowhere. -/
def isEntered (t : FileTree) (p : Path) : Bool :=
  match t.spot p with
  | .ok (some s) => if s.slash then t.isPresent p else (t.node? s.place).isSome
  | _ => t.isPresent p

end CompilerWrapper.FileTree
