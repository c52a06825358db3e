import CompilerWrapper.Log.Append
import CompilerWrapper.Proofs.FileTree.Open
import CompilerWrapper.Proofs.Success

/-!
# What adding an entry leaves

The file that is opened for writing under a path is a regular file, a device, or not there yet. An
entry was added exactly if that file could be locked and took the whole block (`append_eq_ok_iff`),
and then the block is read under the same path, behind what was read there before
(`read_of_gains`).
-/

namespace CompilerWrapper

namespace FileTree

variable {t : FileTree} {l : Location}

theorem put_put (t : FileTree) (l : Location) (n m : Node) : (t.put l n).put l m = t.put l m := by
  have rest :
      ((l, n) :: t.nodes.filter fun entry => entry.1 ≠ l).filter (fun entry => entry.1 ≠ l) =
        t.nodes.filter fun entry => entry.1 ≠ l := by
    rw [List.filter_cons_of_neg (by simp), List.filter_filter]
    simp
  unfold put remove
  dsimp only
  rw [rest]

end FileTree

namespace Log

open FileTree

variable {t u : FileTree} {p : Path} {e : Entry}

/-- A block was added to the file under a path: at its end, or as the contents of a new file, or to
a device that takes everything. -/
inductive Gains (t : FileTree) (p : Path) (block : Bytes) : FileTree → Prop where
  | made {l : Location} : t.openPlace p = .ok l → t.lock l = .ok () → t.node? l = none →
      Gains t p block (t.put l (.file (modeAfterAdding newFileMode block) block))
  | grown {l : Location} {mode : Nat} {contents : Bytes} : t.openPlace p = .ok l →
      t.lock l = .ok () → t.node? l = some (.file mode contents) →
      Gains t p block (t.put l (.file (modeAfterAdding mode block) (contents ++ block)))
  | swallowed {l : Location} : t.openPlace p = .ok l → t.lock l = .ok () →
      t.node? l = some (.device .null) → Gains t p block t

section Open

variable {l : Location} {mid : FileTree}

theorem openAt_of_missing (opens : t.openPlace p = .ok l) (missing : t.node? l = none) :
    openAt t p = .ok (l, t.put l (.file newFileMode [])) := by
  unfold openAt openForAppend
  rw [opens]
  simp only [bind, Except.bind, missing]
  rfl

theorem openAt_of_node (opens : t.openPlace p = .ok l) {n : Node} (node : t.node? l = some n) :
    openAt t p = .ok (l, t) := by
  unfold openAt openForAppend
  rw [opens]
  simp only [bind, Except.bind, node]
  rfl

theorem openPlace_of_openAt (opened : openAt t p = .ok (l, mid)) : t.openPlace p = .ok l := by
  obtain ⟨place, opens, found⟩ := ok_of_bind (ok_of_mapError opened)
  split at found
  · obtain ⟨rfl, -⟩ := Prod.mk.inj (Except.ok.inj found)
    exact opens
  · obtain ⟨rfl, -⟩ := Prod.mk.inj (Except.ok.inj found)
    exact opens

theorem append_eq_ok_of_openAt (opened : openAt t p = .ok (l, mid)) :
    append t p e = (.ok (), u) ↔ mid.lock l = .ok () ∧ mid.append l e.render = .ok u := by
  unfold append lock write
  rw [opened]
  dsimp only
  cases mid.lock l with
  | error fault => exact iff_of_false (by rintro ⟨⟩) (by simp)
  | ok =>
    cases mid.append l e.render with
    | error fault => exact iff_of_false (by rintro ⟨⟩) (by simp)
    | ok v =>
      constructor
      · rintro ⟨⟩
        exact ⟨rfl, rfl⟩
      · rintro ⟨-, ⟨⟩⟩
        rfl

end Open

/-- **An entry was added exactly if the log was opened and locked and took the whole block.** -/
theorem append_eq_ok_iff : append t p e = (.ok (), u) ↔ Gains t p e.render u := by
  constructor
  · intro added
    obtain ⟨l, mid, opened⟩ : ∃ l mid, openAt t p = .ok (l, mid) := by
      unfold append at added
      split at added
      next => cases added
      next l mid opened => exact ⟨l, mid, opened⟩
    have opens := openPlace_of_openAt opened
    obtain ⟨locks, wrote⟩ := (append_eq_ok_of_openAt opened).mp added
    cases node : t.node? l with
    | none =>
      have ne : l ≠ [] := by
        rintro rfl
        cases node
      obtain rfl := (Prod.mk.inj (Except.ok.inj
        (opened.symm.trans (openAt_of_missing opens node)))).2
      unfold FileTree.append at wrote
      rw [node?_put t ne, if_pos rfl] at wrote
      obtain rfl := Except.ok.inj wrote
      rw [put_put]
      exact .made opens locks node
    | some n =>
      obtain rfl := (Prod.mk.inj (Except.ok.inj (opened.symm.trans (openAt_of_node opens node)))).2
      have still := not_leadsOn_of_openPlaceFrom opens node
      unfold FileTree.append at wrote
      rw [node] at wrote
      cases n with
      | file mode contents =>
        obtain rfl := Except.ok.inj wrote
        exact .grown opens locks node
      | device kind =>
        cases kind with
        | null =>
          obtain rfl := Except.ok.inj wrote
          exact .swallowed opens locks node
        | full =>
          dsimp only at wrote
          rw [if_neg e.render_ne_nil] at wrote
          cases wrote
      | directory | link => exact absurd trivial still
  · intro gains
    cases gains with
    | @made l opens locks node =>
      have ne : l ≠ [] := by
        rintro rfl
        cases node
      refine (append_eq_ok_of_openAt (openAt_of_missing opens node)).mpr ⟨locks, ?_⟩
      unfold FileTree.append
      rw [node?_put t ne, if_pos rfl]
      exact congrArg Except.ok (put_put t l _ _)
    | grown opens locks node =>
      refine (append_eq_ok_of_openAt (openAt_of_node opens node)).mpr ⟨locks, ?_⟩
      unfold FileTree.append
      rw [node]
    | swallowed opens locks node =>
      refine (append_eq_ok_of_openAt (openAt_of_node opens node)).mpr ⟨locks, ?_⟩
      unfold FileTree.append
      rw [node]

/-! ### Reading what was added -/

section Read

variable {block : Bytes}

/-- A file that was opened is below the root. -/
theorem ne_nil_of_openPlace {l : Location} (opened : t.openPlace p = .ok l) : l ≠ [] := by
  rintro rfl
  exact not_leadsOn_of_openPlaceFrom opened (rfl : t.node? [] = some .directory) trivial

/-- What is written to a file that was opened leaves all directories and links. -/
theorem leadsOn_put {l : Location} (opened : t.openPlace p = .ok l) {mode : Nat}
    {contents : Bytes} (k : Location) (n : Node) (node : t.node? k = some n) (onward : n.LeadsOn) :
    (t.put l (.file mode contents)).node? k = some n := by
  have apart : k ≠ l := by
    rintro rfl
    exact not_leadsOn_of_openPlaceFrom opened node onward
  rw [node?_put t (ne_nil_of_openPlace opened), if_neg apart, node]

theorem read_put {l : Location} (opened : t.openPlace p = .ok l) {mode : Nat} {contents : Bytes} :
    (t.put l (.file mode contents)).read p = .ok contents := by
  have here : (t.put l (.file mode contents)).here = t.here := rfl
  have node : (t.put l (.file mode contents)).node? l = some (.file mode contents) := by
    rw [node?_put t (ne_nil_of_openPlace opened), if_pos rfl]
  unfold FileTree.read
  rw [resolve_of_openPlace here (leadsOn_put opened) opened node id]
  dsimp only [bind, Except.bind]
  rw [node]

/-- **What was added is read.** Where nothing was found there is the block, and what was found has
the block behind it, unless a device took the block. -/
theorem read_of_gains (gains : Gains t p block u) :
    (t.read p = .error .notFound ∧ u.read p = .ok block) ∨
      (∃ contents, t.read p = .ok contents ∧ u.read p = .ok (contents ++ block)) ∨
      (t.read p = .ok [] ∧ u = t) := by
  have same : ∀ k n, t.node? k = some n → n.LeadsOn → t.node? k = some n := fun _ _ node _ => node
  cases gains with
  | made opened _ missing =>
    refine Or.inl ⟨?_, read_put opened⟩
    unfold FileTree.read
    rw [resolve_of_openPlace_missing rfl same opened missing]
    rfl
  | @grown l mode contents opened _ node =>
    refine Or.inr (Or.inl ⟨contents, ?_, read_put opened⟩)
    unfold FileTree.read
    rw [resolve_of_openPlace rfl same opened node id]
    dsimp only [bind, Except.bind]
    rw [node]
  | swallowed opened _ node =>
    refine Or.inr (Or.inr ⟨?_, rfl⟩)
    unfold FileTree.read
    rw [resolve_of_openPlace rfl same opened node id]
    dsimp only [bind, Except.bind]
    rw [node]

end Read

end Log

end CompilerWrapper
