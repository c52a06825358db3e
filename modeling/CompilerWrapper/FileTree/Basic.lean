import CompilerWrapper.FileTree.Fault
import CompilerWrapper.Path
import CompilerWrapper.Text.Search

/-!
# A file tree

A file tree says what stands at every place below the root: a directory, a regular file with its
permission bits, a symbolic link with its target as written, or one of two devices. A place is the
list of names that lead to it from the root, without links. The tree is seen through `node?`; the
lemmas `node?_put` and `node?_remove` say what the two basic changes do to that view.
-/

namespace CompilerWrapper

/-- A place in the tree: the names on the way from the root. -/
abbrev Location := List Name

/-- A file that holds nothing. -/
inductive Device where
  /-- It takes everything. -/
  | null
  /-- It takes nothing, as if its disk were full. -/
  | full
deriving DecidableEq, Repr

/-- What stands at a place. -/
inductive Node where
  | directory
  /-- A regular file with its permission bits. -/
  | file (mode : Nat) (contents : Bytes)
  /-- A symbolic link; the target is kept as written. -/
  | link (target : Path)
  | device (kind : Device)
deriving DecidableEq, Repr

/-- What stands below the root, and the working directory. -/
structure FileTree where
  nodes : List (Location × Node)
  here : Location
  /-- The places of the programs that are running. Their files cannot be written. -/
  running : List Location := []
  /-- The places whose files cannot be locked, and why. A lock that is only taken for the moment is
  asked for again, and is none of these. -/
  unlockable : List (Location × { fault : Fault // fault.isContention = false }) := []

namespace FileTree

/-- What stands at a place. The root is always a directory. -/
def node? (t : FileTree) (l : Location) : Option Node :=
  if l = [] then some .directory else t.nodes.lookup l

/-- The tree without what stands at a place. A program that runs goes on without its file. -/
def remove (t : FileTree) (l : Location) : FileTree :=
  { t with
    nodes := t.nodes.filter fun entry => entry.1 ≠ l
    running := t.running.filter fun place => place ≠ l }

/-- The tree with `n` at a place. -/
def put (t : FileTree) (l : Location) (n : Node) : FileTree :=
  { t with nodes := (l, n) :: (t.remove l).nodes }

/-- The tree while the program at a place runs. -/
def start (t : FileTree) (l : Location) : FileTree := { t with running := l :: t.running }

/-- The tree once the program at a place runs no more. -/
def stop (t : FileTree) (l : Location) : FileTree := { t with running := t.running.erase l }

/-- The place where something at `l` is once `source` has been moved to `target`. -/
def moved (source target l : Location) : Location :=
  match Text.strip? source l with
  | some below => target ++ below
  | none => l

/-- The tree with what stands at `source` and below it moved to `target`, in the place of what
stood there. -/
def move (t : FileTree) (source target : Location) : FileTree :=
  { t with
    nodes := (t.nodes.filter fun entry => !target.isPrefixOf entry.1).map fun entry =>
      (moved source target entry.1, entry.2)
    running := t.running.filter fun place => !source.isPrefixOf place }

/-- Whether anything stands below a place. -/
def isOccupied (t : FileTree) (l : Location) : Bool :=
  t.nodes.any fun entry => entry.1 ≠ l && l.isPrefixOf entry.1

/-! ### The view of a changed tree -/

theorem lookup_cons (m : Location) (n : Node) (nodes : List (Location × Node)) (k : Location) :
    List.lookup k ((m, n) :: nodes) = if k = m then some n else nodes.lookup k := by
  rw [List.lookup_cons]
  by_cases h : k = m
  · rw [if_pos h, beq_iff_eq.mpr h]
  · rw [if_neg h, beq_false_of_ne h]

theorem lookup_filter_ne (nodes : List (Location × Node)) (l k : Location) :
    (nodes.filter fun entry => entry.1 ≠ l).lookup k =
      if k = l then none else nodes.lookup k := by
  induction nodes with
  | nil => simp
  | cons entry nodes ih =>
    obtain ⟨m, n⟩ := entry
    by_cases hm : m = l
    · rw [List.filter_cons_of_neg (by simp [hm]), ih, lookup_cons, hm]
      by_cases hk : k = l <;> simp [hk]
    · rw [List.filter_cons_of_pos (by simp [hm]), lookup_cons, lookup_cons, ih]
      by_cases hkm : k = m
      · simp [hkm, hm]
      · simp [hkm]

/-- Removing changes what stands at the place and nothing else. -/
theorem node?_remove (t : FileTree) {l : Location} (hl : l ≠ []) (k : Location) :
    (t.remove l).node? k = if k = l then none else t.node? k := by
  by_cases hk : k = []
  · subst hk; simp [node?, Ne.symm hl]
  · simp only [node?, hk, if_false, remove, lookup_filter_ne]

/-- Putting changes what stands at the place and nothing else. -/
theorem node?_put (t : FileTree) {l : Location} (hl : l ≠ []) (n : Node) (k : Location) :
    (t.put l n).node? k = if k = l then some n else t.node? k := by
  by_cases hk : k = []
  · subst hk; simp [node?, Ne.symm hl]
  · simp only [node?, hk, if_false, put, remove, lookup_cons, lookup_filter_ne]
    by_cases h : k = l <;> simp [h]

end FileTree

end CompilerWrapper
