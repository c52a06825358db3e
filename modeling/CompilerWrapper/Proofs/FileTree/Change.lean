import CompilerWrapper.FileTree.Change
import CompilerWrapper.Proofs.FileTree.Walk
import CompilerWrapper.Proofs.Success

/-!
# Changes of the entries of a directory

A path `dir.join name` names the entry `name` of the directory that `dir` leads to
(`spot_join_iff`). What the operations of a file tree do with such a path is said here in terms of
the place of the entry: whether the operation is refused, and what stands where after it.
-/

namespace CompilerWrapper.FileTree

variable {t u : FileTree} {dir : Path} {l m : Location} {left left' : Nat} {name : Name}

/-- The path leads to the directory at a place, and `left` more links may follow. -/
def LeadsTo (t : FileTree) (dir : Path) (l : Location) (left : Nat) : Prop :=
  follow t linkLimit (origin t.here dir) (names dir ++ [Path.here]) = .ok (l, left)

namespace LeadsTo

theorem unique (leads : LeadsTo t dir l left) (leads' : LeadsTo t dir m left') :
    l = m ∧ left = left' :=
  Prod.mk.inj (Except.ok.inj (leads.symm.trans leads'))

theorem directory (leads : LeadsTo t dir l left) : t.node? l = some .directory :=
  (follow_append leads).1

theorem follow_join (leads : LeadsTo t dir l left) (todo : List Name) :
    follow t linkLimit (origin t.here dir) (names dir ++ todo) = follow t left l todo :=
  (follow_append leads).2 todo

/-- The path leads to the same place in a tree that keeps the directories and links. -/
theorem congr (leads : LeadsTo t dir l left) (here : u.here = t.here)
    (ways : ∀ k n, t.node? k = some n → n.LeadsOn → u.node? k = some n) :
    LeadsTo u dir l left := by
  unfold LeadsTo
  rw [here]
  apply follow_congr ways leads
  intro n node
  rw [leads.directory] at node
  obtain rfl := Option.some.inj node
  exact ways l _ leads.directory trivial

theorem rooted (leads : LeadsTo t dir l left) (here : Rooted t t.here) : Rooted t l := by
  refine follow_rooted (here.origin dir) ?_ leads leads.directory
  intro name h
  rcases List.mem_append.mp h with h | h
  · exact isPart_of_mem_names h
  · rw [List.mem_singleton.mp h]
    exact ⟨by decide, by decide⟩

end LeadsTo

theorem resolve_eq (t : FileTree) {p : Path} (fits : checkPath p = .ok ()) :
    t.resolve p = (follow t linkLimit (origin t.here p) (steps p)).map Prod.fst := by
  unfold resolve
  rw [fits]
  cases follow t linkLimit (origin t.here p) (steps p) <;> rfl

theorem resolve_eq_ok_iff {p : Path} :
    t.resolve p = .ok l ↔ checkPath p = .ok () ∧
      ∃ left, follow t linkLimit (origin t.here p) (steps p) = .ok (l, left) := by
  constructor
  · intro resolved
    unfold resolve at resolved
    obtain ⟨_, fits, resolved⟩ := ok_of_bind resolved
    obtain ⟨⟨_, left⟩, walked, ended⟩ := ok_of_bind resolved
    obtain rfl := Except.ok.inj ended
    exact ⟨fits, left, walked⟩
  · rintro ⟨fits, left, walked⟩
    rw [resolve_eq t fits, walked]
    rfl

theorem resolve_congr {p : Path} (here : u.here = t.here)
    (ways : ∀ k n, t.node? k = some n → n.LeadsOn → u.node? k = some n)
    (resolved : t.resolve p = .ok l) (goal : ∀ n, t.node? l = some n → u.node? l = some n) :
    u.resolve p = .ok l := by
  obtain ⟨fits, left, walked⟩ := resolve_eq_ok_iff.mp resolved
  rw [resolve_eq_ok_iff, here]
  exact ⟨fits, left, follow_congr ways walked goal⟩

/-- Reading sees nothing of a tree but its nodes and its working directory. -/
theorem resolve_ext (here : u.here = t.here) (same : ∀ k, u.node? k = t.node? k) (p : Path) :
    u.resolve p = t.resolve p := by
  unfold resolve
  simp only [follow_ext same, here]

theorem read_ext (here : u.here = t.here) (same : ∀ k, u.node? k = t.node? k) (p : Path) :
    u.read p = t.read p := by
  unfold read
  simp only [resolve_ext here same, same]

theorem leadsTo_of_resolve (resolved : t.resolve (dir.join Path.here) = .ok l) :
    ∃ left, LeadsTo t dir l left := by
  obtain ⟨-, left, walked⟩ := resolve_eq_ok_iff.mp resolved
  rw [Path.steps_join dir (by decide) (by decide), Path.origin_join dir (by decide)] at walked
  exact ⟨left, walked⟩

theorem checkBytes_eq_ok_iff {p : Path} : checkBytes p = .ok () ↔ 0 ∉ p := by
  unfold checkBytes
  split
  next zero => exact iff_of_false (by rintro ⟨⟩) fun no_zero => no_zero zero
  next no_zero => exact iff_of_true rfl no_zero

theorem checkPath_eq_ok_iff {p : Path} :
    checkPath p = .ok () ↔ 0 ∉ p ∧ p ≠ [] ∧ p.length < pathLimit := by
  unfold checkPath checkBytes
  by_cases zero : 0 ∈ p
  · rw [if_pos zero]
    exact iff_of_false (by rintro ⟨⟩) fun h => h.1 zero
  · rw [if_neg zero]
    change (if p = [] then _ else _) = _ ↔ _
    split
    next empty => exact iff_of_false (by rintro ⟨⟩) (by simp [empty])
    next ne =>
      split
      next long => exact iff_of_false (by rintro ⟨⟩) (by simp [Nat.not_lt.mpr long])
      next short => exact iff_of_true rfl ⟨zero, ne, Nat.lt_of_not_le short⟩

/-- A path that is refused for its bytes alone is refused. -/
theorem checkBytes_of_checkPath {p : Path} (fits : checkPath p = .ok ()) : checkBytes p = .ok () :=
  checkBytes_eq_ok_iff.mpr (checkPath_eq_ok_iff.mp fits).1

/-- A directory in which something is present is found itself. -/
theorem resolve_dir_of_join (isName : Path.IsName name)
    (resolved : t.resolve (dir.join name) = .ok m) :
    ∃ l, t.resolve (dir.join Path.here) = .ok l := by
  obtain ⟨fits, _, walked⟩ := resolve_eq_ok_iff.mp resolved
  rw [Path.steps_join dir isName.ne_nil isName.no_slash, Path.origin_join dir isName.no_slash]
    at walked
  obtain ⟨l, left, walked⟩ := follow_upTo walked
  refine ⟨l, resolve_eq_ok_iff.mpr ⟨?_, left, ?_⟩⟩
  · have length := Path.length_join dir isName.no_slash
    have length' := Path.length_join dir (p := Path.here) (by decide)
    have one : Path.here.length = 1 := rfl
    have some := List.length_pos_iff.mpr isName.ne_nil
    obtain ⟨no_zero, -, short⟩ := checkPath_eq_ok_iff.mp fits
    rw [Path.zero_mem_join_iff dir isName.no_slash] at no_zero
    refine checkPath_eq_ok_iff.mpr ⟨?_, List.length_pos_iff.mp (by omega), by omega⟩
    rw [Path.zero_mem_join_iff dir (by decide)]
    exact not_or.mpr ⟨fun zero => no_zero (Or.inl zero), by decide⟩
  · rw [Path.steps_join dir (by decide) (by decide), Path.origin_join dir (by decide)]
    exact walked

/-! ### The entry under a joined path -/

theorem spotFrom_join (isName : Path.IsName name) (t : FileTree) (links : Nat) (start : Location)
    (dir : Path) :
    t.spotFrom links start (dir.join name) =
      match checkPath (dir.join name), follow t links (origin start dir) (names dir ++ [Path.here])
      with
      | .error fault, _ => .error fault
      | .ok (), .error fault => .error fault
      | .ok (), .ok (l, left) =>
        if nameLimit < name.length then .error .nameTooLong
        else .ok (some ⟨l, name, false⟩, left) := by
  have no_dot : ¬ (name = Path.here ∨ name = Path.above) :=
    not_or.mpr ⟨isName.ne_here, isName.ne_above⟩
  unfold spotFrom
  rw [Path.names_join dir isName.ne_nil isName.no_slash, List.dropLast_concat,
    List.getLast?_concat, Path.origin_join dir isName.no_slash,
    Path.endsInSlash_join dir isName.ne_nil isName.no_slash]
  simp only [no_dot, if_false]
  cases checkPath (dir.join name) with
  | error fault => rfl
  | ok => cases follow t links (origin start dir) (names dir ++ [Path.here]) <;> rfl

theorem spot_join_iff (isName : Path.IsName name) (s : Option Spot) :
    t.spot (dir.join name) = .ok s ↔
      checkPath (dir.join name) = .ok () ∧ name.length ≤ nameLimit ∧
        ∃ l left, LeadsTo t dir l left ∧ s = some ⟨l, name, false⟩ := by
  unfold spot LeadsTo
  rw [spotFrom_join isName]
  cases checkPath (dir.join name) with
  | error fault => exact iff_of_false (by rintro ⟨⟩) (by simp)
  | ok =>
    cases follow t linkLimit (origin t.here dir) (names dir ++ [Path.here]) with
    | error fault => exact iff_of_false (by rintro ⟨⟩) (by simp)
    | ok found =>
      by_cases long : nameLimit < name.length
      · simp only [if_pos long]
        exact iff_of_false (by rintro ⟨⟩) (by simp [Nat.not_le.mpr long])
      · simp only [if_neg long]
        constructor
        · intro ended
          exact ⟨trivial, Nat.le_of_not_lt long, found.1, found.2, rfl, (Except.ok.inj ended).symm⟩
        · rintro ⟨-, -, l, left, walked, rfl⟩
          obtain rfl := Except.ok.inj walked
          rfl

/-- The path can name an entry, in whichever tree. -/
structure Nameable (dir : Path) (name : Name) : Prop where
  isName : Path.IsName name
  fits : checkPath (dir.join name) = .ok ()
  short : name.length ≤ nameLimit

instance (dir : Path) (name : Name) : Decidable (Nameable dir name) :=
  decidable_of_iff (Path.IsName name ∧
      (0 ∉ dir.join name ∧ dir.join name ≠ [] ∧ (dir.join name).length < pathLimit) ∧
      name.length ≤ nameLimit)
    ⟨fun h => ⟨h.1, checkPath_eq_ok_iff.mpr h.2.1, h.2.2⟩,
      fun h => ⟨h.isName, checkPath_eq_ok_iff.mp h.fits, h.short⟩⟩

theorem Nameable.spot (nameable : Nameable dir name) (leads : LeadsTo t dir l left) :
    t.spot (dir.join name) = .ok (some ⟨l, name, false⟩) :=
  (spot_join_iff nameable.isName _).mpr ⟨nameable.fits, nameable.short, l, left, leads, rfl⟩

/-- A path that has a spot can name an entry, and its directory is there. -/
theorem nameable_of_spot (isName : Path.IsName name) {s : Option Spot}
    (found : t.spot (dir.join name) = .ok s) :
    Nameable dir name ∧ ∃ l left, LeadsTo t dir l left ∧ s = some ⟨l, name, false⟩ := by
  obtain ⟨fits, short, leads⟩ := (spot_join_iff isName s).mp found
  exact ⟨⟨isName, fits, short⟩, leads⟩

theorem place_ne_nil (l : Location) (name : Name) : l ++ [name] ≠ [] := by simp

theorem isEntered_join (nameable : Nameable dir name) (leads : LeadsTo t dir l left) :
    t.isEntered (dir.join name) = (t.node? (l ++ [name])).isSome := by
  unfold isEntered
  rw [nameable.spot leads]
  rfl

theorem resolve_join (isName : Path.IsName name) (leads : LeadsTo t dir l left)
    (fits : checkPath (dir.join name) = .ok ()) :
    t.resolve (dir.join name) = (follow t left l [name]).map Prod.fst := by
  rw [resolve_eq t fits, Path.steps_join dir isName.ne_nil isName.no_slash,
    Path.origin_join dir isName.no_slash, leads.follow_join]

theorem advance_entry (isName : Path.IsName name) (directory : t.node? l = some .directory) :
    advance t l [name] =
      if nameLimit < name.length then .error .nameTooLong
      else match t.node? (l ++ [name]) with
        | none => .error .notFound
        | some (.link target) => .ok (.link l target [])
        | some _ => .ok (.reached (l ++ [name])) :=
  advance_name directory isName.ne_here isName.ne_above []

theorem resolve_join_of_file (nameable : Nameable dir name) (leads : LeadsTo t dir l left)
    {mode : Nat} {contents : Bytes} (node : t.node? (l ++ [name]) = some (.file mode contents)) :
    t.resolve (dir.join name) = .ok (l ++ [name]) := by
  have halted := advance_entry nameable.isName leads.directory
  rw [if_neg (Nat.not_lt.mpr nameable.short), node] at halted
  rw [resolve_join nameable.isName leads nameable.fits, follow_of_reached halted]
  rfl

/-- Under a path that is present stands an entry. -/
theorem entry_of_resolve_join (isName : Path.IsName name) (leads : LeadsTo t dir l left)
    {place : Location} (resolved : t.resolve (dir.join name) = .ok place) :
    Nameable dir name ∧ (t.node? (l ++ [name])).isSome := by
  have fits := (resolve_eq_ok_iff.mp resolved).1
  have halted := advance_entry isName leads.directory
  rw [resolve_join isName leads fits] at resolved
  by_cases long : nameLimit < name.length
  · rw [if_pos long] at halted
    unfold follow at resolved
    rw [halted] at resolved
    cases resolved
  · refine ⟨⟨isName, fits, Nat.le_of_not_lt long⟩, ?_⟩
    rw [if_neg long] at halted
    cases node : t.node? (l ++ [name]) with
    | some n => rfl
    | none =>
      rw [node] at halted
      unfold follow at resolved
      rw [halted] at resolved
      cases resolved

theorem isPresent_of_read {p : Path} {contents : Bytes} (read : t.read p = .ok contents) :
    t.isPresent p = true := by
  obtain ⟨place, resolved, -⟩ := ok_of_bind read
  unfold isPresent
  rw [resolved]
  rfl

theorem exists_of_isPresent {p : Path} (present : t.isPresent p = true) :
    ∃ l, t.resolve p = .ok l := by
  unfold isPresent at present
  cases resolved : t.resolve p with
  | error fault =>
    rw [resolved] at present
    cases present
  | ok l => exact ⟨l, rfl⟩

/-- An entry that is a file or missing is present if it is a file, as long as its path can name
it. -/
theorem isPresent_join_iff (isName : Path.IsName name) (leads : LeadsTo t dir l left)
    (entry : ∀ n, t.node? (l ++ [name]) = some n → ∃ mode contents, n = .file mode contents) :
    t.isPresent (dir.join name) = true ↔
      Nameable dir name ∧ (t.node? (l ++ [name])).isSome := by
  constructor
  · intro present
    obtain ⟨place, resolved⟩ := exists_of_isPresent present
    exact entry_of_resolve_join isName leads resolved
  · rintro ⟨nameable, some⟩
    obtain ⟨n, node⟩ := Option.isSome_iff_exists.mp some
    obtain ⟨mode, contents, rfl⟩ := entry n node
    unfold isPresent
    rw [resolve_join_of_file nameable leads node]
    rfl

/-! ### What the operations do with an entry -/

/-- Removing an entry is refused only where there is none and where it is a directory. -/
theorem unlink_join (nameable : Nameable dir name) (leads : LeadsTo t dir l left) :
    t.unlink (dir.join name) =
      match t.node? (l ++ [name]) with
      | none => .error .notFound
      | some .directory => .error .isDirectory
      | some _ => .ok (t.remove (l ++ [name])) := by
  unfold unlink
  rw [nameable.spot leads]
  dsimp only [bind, Except.bind, Spot.place]
  cases t.node? (l ++ [name]) with
  | none => rfl
  | some n => cases n <;> rfl

theorem symlink_join_iff {target : Path} (isName : Path.IsName name) :
    t.symlink target (dir.join name) = .ok u ↔
      checkPath target = .ok () ∧ Nameable dir name ∧ ∃ l left, LeadsTo t dir l left ∧
        t.node? (l ++ [name]) = none ∧ u = t.put (l ++ [name]) (.link target) := by
  unfold symlink
  constructor
  · intro linked
    obtain ⟨_, -, linked⟩ := ok_of_bind linked
    obtain ⟨_, fits, linked⟩ := ok_of_bind linked
    obtain ⟨s, found, linked⟩ := ok_of_bind linked
    obtain ⟨nameable, l, left, leads, rfl⟩ := nameable_of_spot isName found
    dsimp only [Spot.place] at linked
    split at linked
    next => cases linked
    next node => exact ⟨fits, nameable, l, left, leads, node, (Except.ok.inj linked).symm⟩
  · rintro ⟨fits, nameable, l, left, leads, missing, rfl⟩
    rw [checkBytes_of_checkPath nameable.fits, fits, nameable.spot leads]
    dsimp only [bind, Except.bind, Spot.place]
    rw [missing]
    rfl

theorem nameable_of_rename {p : Path} (isName : Path.IsName name)
    (renamed : t.rename p (dir.join name) = .ok u) : Nameable dir name := by
  unfold rename at renamed
  obtain ⟨_, -, renamed⟩ := ok_of_bind renamed
  obtain ⟨_, -, renamed⟩ := ok_of_bind renamed
  obtain ⟨_, found, -⟩ := ok_of_bind renamed
  exact (nameable_of_spot isName found).1

/-- A file is moved to where nothing is. -/
theorem rename_join {a b : Name} {mode : Nat} {contents : Bytes} (nameable : Nameable dir a)
    (nameable' : Nameable dir b) (leads : LeadsTo t dir l left)
    (source : t.node? (l ++ [a]) = some (.file mode contents))
    (target : t.node? (l ++ [b]) = none) :
    t.rename (dir.join a) (dir.join b) =
      .ok ((t.remove (l ++ [a])).put (l ++ [b]) (.file mode contents)) := by
  have outside : (l ++ [b]).isPrefixOf l = false := by
    rw [Bool.eq_false_iff]
    intro above
    have length := (List.isPrefixOf_iff_prefix.mp above).length_le
    rw [List.length_append, List.length_singleton] at length
    omega
  have apart : l ++ [a] ≠ l ++ [b] := by
    intro same
    rw [same, target] at source
    cases source
  unfold rename
  rw [checkBytes_of_checkPath nameable'.fits, nameable.spot leads, nameable'.spot leads]
  simp only [bind, Except.bind, Spot.place, source, target, outside, apart, if_false,
    Bool.false_eq_true, or_self]

/-- An entry that is no directory is moved to where no directory is. -/
theorem of_rename_join {a b : Name} (isName : Path.IsName a) (isName' : Path.IsName b)
    (apart : a ≠ b) (renamed : t.rename (dir.join a) (dir.join b) = .ok u) :
    Nameable dir b ∧ ∃ l left, LeadsTo t dir l left ∧
      (t.node? (l ++ [a]) ≠ some .directory → t.node? (l ++ [b]) ≠ some .directory ∧
        ∃ n, t.node? (l ++ [a]) = some n ∧ u = (t.remove (l ++ [a])).put (l ++ [b]) n) := by
  unfold rename at renamed
  obtain ⟨_, -, renamed⟩ := ok_of_bind renamed
  obtain ⟨_, source, renamed⟩ := ok_of_bind renamed
  obtain ⟨_, target, renamed⟩ := ok_of_bind renamed
  obtain ⟨-, l, left, leads, rfl⟩ := nameable_of_spot isName source
  obtain ⟨nameable, _, _, leads', rfl⟩ := nameable_of_spot isName' target
  obtain ⟨rfl, rfl⟩ := leads.unique leads'
  have ne : l ++ [a] ≠ l ++ [b] := fun same => apart (List.cons.inj (List.append_cancel_left same)).1
  refine ⟨nameable, l, left, leads, fun not_directory => ?_⟩
  simp only [Spot.place, ne, if_false, Bool.false_eq_true, or_self] at renamed
  split at renamed
  next => cases renamed
  next directory => exact absurd directory not_directory
  next n _ node =>
    split at renamed
    next => cases renamed
    next =>
      split at renamed
      next => cases renamed
      next not_directory' => exact ⟨not_directory', n, node, (Except.ok.inj renamed).symm⟩

theorem openPlace_join (nameable : Nameable dir name) (leads : LeadsTo t dir l left)
    (missing : t.node? (l ++ [name]) = none) :
    t.openPlace (dir.join name) = .ok (l ++ [name]) := by
  have short := Nat.not_lt.mpr nameable.short
  unfold openPlace openPlaceFrom
  rw [spotFrom_join nameable.isName, nameable.fits, show follow t linkLimit _ _ = _ from leads]
  dsimp only
  rw [if_neg short]
  dsimp only [Spot.place]
  rw [missing]
  rfl

theorem nameable_of_openPlace (isName : Path.IsName name) {place : Location}
    (opened : t.openPlace (dir.join name) = .ok place) :
    Nameable dir name ∧ ∃ l left, LeadsTo t dir l left := by
  unfold openPlace openPlaceFrom at opened
  cases found : t.spotFrom linkLimit t.here (dir.join name) with
  | error fault =>
    rw [found] at opened
    cases opened
  | ok s =>
    have spotted : t.spot (dir.join name) = .ok s.1 := by
      unfold spot
      rw [found]
      rfl
    obtain ⟨nameable, l, left, leads, -⟩ := nameable_of_spot isName spotted
    exact ⟨nameable, l, left, leads⟩

/-- A file is copied to where nothing is. -/
theorem copy_join {source : Path} {place : Location} {mode : Nat} {contents : Bytes}
    (nameable : Nameable dir name) (leads : LeadsTo t dir l left)
    (missing : t.node? (l ++ [name]) = none) (resolved : t.resolve source = .ok place)
    (node : t.node? place = some (.file mode contents)) :
    t.copy source (dir.join name) =
      .ok (t.put (l ++ [name]) (.file (modeAfterAdding mode contents) contents)) := by
  unfold copy
  rw [resolved]
  dsimp only [bind, Except.bind]
  rw [node]
  dsimp only
  rw [openPlace_join nameable leads missing]
  dsimp only
  rw [missing]

theorem nameable_of_copy {source : Path} (isName : Path.IsName name)
    (copied : t.copy source (dir.join name) = .ok u) :
    (Nameable dir name ∧ ∃ l left, LeadsTo t dir l left) ∧ ∃ place mode contents,
      t.resolve source = .ok place ∧ t.node? place = some (.file mode contents) := by
  unfold copy at copied
  obtain ⟨place, resolved, copied⟩ := ok_of_bind copied
  split at copied
  next mode contents node =>
    obtain ⟨target, opened, copied⟩ := ok_of_bind copied
    exact ⟨nameable_of_openPlace isName opened, place, mode, contents, resolved, node⟩
  next => cases copied

/-- A file that is written keeps who may read, write and run it. -/
theorem modeAfterAdding_mod (mode : Nat) (contents : Bytes) :
    modeAfterAdding mode contents % 0o1000 = mode % 0o1000 := by
  have first : (if mode.testBit 11 then mode - 0o4000 else mode) % 0o1000 = mode % 0o1000 := by
    split
    next set =>
      have large := Nat.ge_two_pow_of_testBit set
      omega
    next => rfl
  unfold modeAfterAdding modeAfterWrite
  generalize (if mode.testBit 11 then mode - 0o4000 else mode) = written at first ⊢
  split
  next => rfl
  next =>
    dsimp only
    split
    next set =>
      have large := Nat.ge_two_pow_of_testBit set.1
      omega
    next => exact first

/-! ### Trees without some entries -/

/-- The tree without what stands at some places. -/
def without (t : FileTree) (places : List Location) : FileTree := places.foldl remove t

theorem here_without (t : FileTree) (places : List Location) :
    (t.without places).here = t.here := by
  unfold without
  induction places generalizing t with
  | nil => rfl
  | cons place places ih => exact ih (t.remove place)

theorem node?_without (t : FileTree) {places : List Location} (ne : ∀ place ∈ places, place ≠ [])
    (k : Location) : (t.without places).node? k = if k ∈ places then none else t.node? k := by
  unfold without
  induction places generalizing t with
  | nil => simp
  | cons place places ih =>
    obtain ⟨first, rest⟩ := List.forall_mem_cons.mp ne
    rw [List.foldl_cons, ih _ rest, node?_remove t first]
    by_cases mem : k ∈ places
    · simp [mem]
    · by_cases same : k = place
      · simp [same]
      · simp [mem, same]

end CompilerWrapper.FileTree
