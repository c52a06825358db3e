import CompilerWrapper.Proofs.FileTree.Change

/-!
# What is opened is what is read

A file is opened for writing by another walk than the one that reads: it may end at a place where
nothing is, and it counts the links at its end apart. Both come to the same entry
(`follow_of_openPlaceFrom`). So what was opened and is there is read under the same path
(`resolve_of_openPlace`), and what was opened and is not there is not found.
-/

namespace CompilerWrapper.FileTree

variable {t u : FileTree} {p : Path} {l start : Location} {links left ends : Nat}

/-- A spot is the last name of its path in the directory that the names before it lead to. -/
theorem of_spotFrom {s : Spot} (spotted : t.spotFrom links start p = .ok (some s, left)) :
    checkPath p = .ok () ∧
      follow t links (origin start p) ((names p).dropLast ++ [Path.here]) = .ok (s.dir, left) ∧
      (names p).getLast? = some s.name ∧ Path.IsName s.name ∧ s.name.length ≤ nameLimit ∧
      s.slash = endsInSlash p := by
  unfold spotFrom at spotted
  obtain ⟨_, fits, spotted⟩ := ok_of_bind spotted
  obtain ⟨⟨dir, left'⟩, walked, spotted⟩ := ok_of_bind spotted
  cases last : (names p).getLast? with
  | none =>
    rw [last] at spotted
    cases spotted
  | some name =>
    rw [last] at spotted
    dsimp only at spotted
    split at spotted
    next => cases spotted
    next no_dot =>
      obtain ⟨ne_here, ne_above⟩ := not_or.mp no_dot
      split at spotted
      next => cases spotted
      next short =>
        cases spotted
        have mem := List.mem_of_getLast? last
        obtain ⟨ne_nil, no_slash⟩ := isPart_of_mem_names mem
        have no_zero := no_zero_of_mem_names (checkPath_eq_ok_iff.mp fits).1 mem
        exact ⟨fits, walked, rfl, ⟨⟨ne_nil, no_slash, ne_here, ne_above⟩, no_zero⟩,
          Nat.le_of_not_lt short, rfl⟩

/-- A file is opened for writing at the spot of a path, or at the end of the link that is there. -/
theorem cases_of_openPlaceFrom (opened : t.openPlaceFrom ends links start p = .ok l) :
    ∃ s left, t.spotFrom links start p = .ok (some s, left) ∧ s.slash = false ∧
      ((l = s.place ∧ ∀ n, t.node? l = some n → ¬ n.LeadsOn) ∨
        ∃ target ends' left', ends = ends' + 1 ∧ left = left' + 1 ∧
          t.node? s.place = some (.link target) ∧
          t.openPlaceFrom ends' left' s.dir target = .ok l) := by
  unfold openPlaceFrom at opened
  split at opened
  next => cases opened
  next => cases opened
  next s left spotted =>
    split at opened
    next => cases opened
    next no_slash =>
      refine ⟨s, left, spotted, by simpa using no_slash, ?_⟩
      split at opened
      next missing =>
        obtain rfl := Except.ok.inj opened
        exact Or.inl ⟨rfl, fun n node => absurd (missing.symm.trans node) (by simp)⟩
      next => cases opened
      next target node =>
        split at opened
        next ends left => exact Or.inr ⟨target, ends, left, rfl, rfl, node, opened⟩
        next => cases opened
      next n not_directory not_link node =>
        split at opened
        next => cases opened
        next =>
          obtain rfl := Except.ok.inj opened
          refine Or.inl ⟨rfl, fun n' node' => ?_⟩
          obtain rfl := Option.some.inj (node.symm.trans node')
          cases n with
          | directory => exact absurd rfl not_directory
          | link target => exact absurd rfl (not_link target)
          | file | device => exact id

/-- What is opened for writing is no directory and no link. -/
theorem not_leadsOn_of_openPlaceFrom (opened : t.openPlaceFrom ends links start p = .ok l) {n : Node}
    (node : t.node? l = some n) : ¬ n.LeadsOn := by
  induction ends using Nat.strongRecOn generalizing links start p with
  | ind ends ih =>
    obtain ⟨_, _, -, -, ⟨-, still⟩ | ⟨_, ends, _, rfl, -, -, onward⟩⟩ := cases_of_openPlaceFrom opened
    · exact still n node
    · exact ih ends (Nat.lt_succ_self ends) onward

/-- **The walk that opens a file and the walk that reads come to the same entry.** The trees may
differ in what is no directory and no link. -/
theorem follow_of_openPlaceFrom
    (ways : ∀ k n, t.node? k = some n → n.LeadsOn → u.node? k = some n)
    (opened : t.openPlaceFrom ends links start p = .ok l) :
    ∃ dir name left, l = dir ++ [name] ∧ Path.IsName name ∧ name.length ≤ nameLimit ∧
      u.node? dir = some .directory ∧
      follow u links (origin start p) (steps p) = follow u left dir [name] := by
  induction ends using Nat.strongRecOn generalizing links start p with
  | ind ends ih =>
    obtain ⟨s, left, spotted, no_slash, found⟩ := cases_of_openPlaceFrom opened
    obtain ⟨-, walked, last, isName, short, slash⟩ := of_spotFrom spotted
    have directory := ways _ _ (follow_append walked).1 trivial
    have walked := follow_congr ways walked fun n node => by
      rw [← Option.some.inj ((follow_append walked).1.symm.trans node)]
      exact directory
    have way : steps p = (names p).dropLast ++ [s.name] := by
      obtain ⟨front, whole⟩ := List.getLast?_eq_some_iff.mp last
      rw [steps, ← slash, no_slash, whole, List.dropLast_concat]
      rfl
    have same := (follow_append walked).2 [s.name]
    rw [← way] at same
    rcases found with ⟨rfl, -⟩ | ⟨target, ends, left, rfl, rfl, link, onward⟩
    · exact ⟨s.dir, s.name, left, rfl, isName, short, directory, same⟩
    · obtain ⟨dir, name, left', place, isName', short', directory', same'⟩ :=
        ih ends (Nat.lt_succ_self ends) onward
      refine ⟨dir, name, left', place, isName', short', directory', ?_⟩
      have halted := advance_entry isName directory
      rw [if_neg (Nat.not_lt.mpr short), show u.node? (s.dir ++ [s.name]) = _ from
        ways _ _ link trivial] at halted
      rw [same, follow_of_link halted, List.append_nil]
      exact same'

section Read

variable (here : u.here = t.here)
  (ways : ∀ k n, t.node? k = some n → n.LeadsOn → u.node? k = some n)
  (opened : t.openPlace p = .ok l)

include opened

theorem checkPath_of_openPlace : checkPath p = .ok () := by
  obtain ⟨_, _, spotted, -⟩ := cases_of_openPlaceFrom opened
  exact (of_spotFrom spotted).1

include here ways

/-- What was opened for writing is what the path leads to, once something is there. -/
theorem resolve_of_openPlace {n : Node} (node : u.node? l = some n) (still : ¬ n.LeadsOn) :
    u.resolve p = .ok l := by
  obtain ⟨dir, name, left, rfl, isName, short, directory, same⟩ :=
    follow_of_openPlaceFrom ways opened
  have halted := advance_entry isName directory
  rw [if_neg (Nat.not_lt.mpr short), node] at halted
  rw [resolve_eq u (checkPath_of_openPlace opened), here, same]
  cases n with
  | directory | link => exact absurd trivial still
  | file | device => rw [follow_of_reached halted]; rfl

/-- Where nothing is at the place that was opened, nothing is found. -/
theorem resolve_of_openPlace_missing (missing : u.node? l = none) :
    u.resolve p = .error .notFound := by
  obtain ⟨dir, name, left, rfl, isName, short, directory, same⟩ :=
    follow_of_openPlaceFrom ways opened
  have halted := advance_entry isName directory
  rw [if_neg (Nat.not_lt.mpr short), missing] at halted
  rw [resolve_eq u (checkPath_of_openPlace opened), here, same, follow, halted]
  rfl

end Read

end CompilerWrapper.FileTree
