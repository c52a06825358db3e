import CompilerWrapper.Proofs.FileTree.Change

/-!
# What a walk goes through

A walk to a directory goes through an entry, or it does not. If it does, the entry is a link, and
the walk fails where there is nothing in its place; if not, it leads to the same place whatever
becomes of the entry (`follow_spares_or_through`). So a directory that is still found after an entry
was removed is found where it was (`LeadsTo.of_found`).

What lies behind a link that a path goes through is there, but a walk that begins with that path may
come to the link with too few links left to be followed. Then, and only then, the entry is not
present although the path goes through it (`present_or_loop_of_through`).
-/

namespace CompilerWrapper.FileTree

variable {t u v : FileTree} {place : Location}

/-- All that stands in the first tree, but for what is at the place, stands in the second one. -/
structure KeepsBut (t : FileTree) (place : Location) (u : FileTree) : Prop where
  here : u.here = t.here
  node? : ∀ other n, other ≠ place → t.node? other = some n → u.node? other = some n

theorem node?_remove_eq_some_iff (ne : place ≠ []) {other : Location} {n : Node} :
    (t.remove place).node? other = some n ↔ other ≠ place ∧ t.node? other = some n := by
  rw [node?_remove t ne]
  split
  next same => simp [same]
  next apart => simp [apart]

theorem keepsBut_remove (t : FileTree) (ne : place ≠ []) : KeepsBut t place (t.remove place) :=
  ⟨rfl, fun _ _ apart node => (node?_remove_eq_some_iff ne).mpr ⟨apart, node⟩⟩

namespace KeepsBut

variable {gone : Location}

theorem of_remove (keeps : KeepsBut t place u) (ne : gone ≠ []) :
    KeepsBut (t.remove gone) place u :=
  ⟨keeps.here, fun other n apart node =>
    keeps.node? other n apart ((node?_remove_eq_some_iff ne).mp node).2⟩

theorem remove (keeps : KeepsBut t place u) (ne : gone ≠ []) :
    KeepsBut (t.remove gone) place (u.remove gone) := by
  refine ⟨keeps.here, fun other n apart node => ?_⟩
  obtain ⟨apart', node⟩ := (node?_remove_eq_some_iff ne).mp node
  exact (node?_remove_eq_some_iff ne).mpr ⟨apart', keeps.node? other n apart node⟩

theorem directories (keeps : KeepsBut t place u)
    (not_directory : t.node? place ≠ some .directory) (other : Location)
    (directory : t.node? other = some .directory) : u.node? other = some .directory := by
  refine keeps.node? other _ ?_ directory
  rintro rfl
  exact not_directory directory

end KeepsBut

/-! ### Walks to a directory -/

/-- A walk through the link at the place: what is walked behind the link. -/
def Through (t : FileTree) (place : Location) : Prop :=
  ∃ dir name target links rest found, place = dir ++ [name] ∧
    t.node? place = some (.link target) ∧
    follow t links (origin dir target) (steps target ++ rest) = .ok found

/-- **A walk to a directory does not depend on an entry, or it goes through the entry** and fails
where there is none. -/
theorem follow_spares_or_through (not_directory : t.node? place ≠ some .directory)
    {links left : Nat} {l r : Location} {todo : List Name}
    (walked : follow t links l todo = .ok (r, left)) (directory : t.node? r = some .directory) :
    (∀ u, KeepsBut t place u → follow u links l todo = .ok (r, left)) ∨
      (Through t place ∧ ∀ u, KeepsBut t place u → u.node? place = none →
        follow u links l todo = .error .notFound) := by
  induction links using Nat.strongRecOn generalizing l todo with
  | ind links ih =>
    rcases cases_of_follow walked with ⟨halted, rfl⟩ | ⟨dir, target, rest, links, halted, rfl, onward⟩
    · refine Or.inl fun u keeps =>
        follow_of_reached (halts_of_advance halted u (keeps.directories not_directory) ?_)
      intro n node
      obtain rfl := Option.some.inj (directory.symm.trans node)
      exact keeps.directories not_directory _ directory
    · obtain ⟨name, node, same⟩ := halts_of_advance halted
      by_cases here : dir ++ [name] = place
      · subst here
        refine Or.inr ⟨⟨dir, name, target, links, rest, _, rfl, node, onward⟩, ?_⟩
        intro u keeps missing
        have stopped := same u (keeps.directories not_directory)
        rw [missing] at stopped
        unfold follow
        rw [stopped]
      · have onward' : ∀ u, KeepsBut t place u → follow u (links + 1) l todo =
            follow u links (origin dir target) (steps target ++ rest) := by
          intro u keeps
          have halted := same u (keeps.directories not_directory)
          rw [keeps.node? _ _ here node] at halted
          exact follow_of_link halted
        rcases ih links (Nat.lt_succ_self links) onward with spares | ⟨through, fails⟩
        · exact Or.inl fun u keeps => (onward' u keeps).trans (spares u keeps)
        · exact Or.inr ⟨through, fun u keeps missing =>
            (onward' u keeps).trans (fails u keeps missing)⟩

namespace LeadsTo

variable {dir : Path} {l m : Location} {left left' : Nat}

/-- A path leads to a directory whatever is at the place, or it goes through the place. -/
theorem spares_or_through (leads : LeadsTo t dir l left)
    (not_directory : t.node? place ≠ some .directory) :
    (∀ u, KeepsBut t place u → LeadsTo u dir l left) ∨
      (Through t place ∧ ∀ u, KeepsBut t place u → u.node? place = none →
        ∀ m left, ¬ LeadsTo u dir m left) := by
  rcases follow_spares_or_through not_directory leads leads.directory with
    spares | ⟨through, fails⟩
  · refine Or.inl fun u keeps => ?_
    unfold LeadsTo
    rw [keeps.here]
    exact spares u keeps
  · refine Or.inr ⟨through, fun u keeps missing m left found => ?_⟩
    have failed := fails u keeps missing
    rw [← keeps.here] at failed
    cases found.symm.trans failed

/-- **A directory that is found without an entry is found where it was**, whatever becomes of the
entry. -/
theorem of_found (leads : LeadsTo t dir l left) (not_directory : t.node? place ≠ some .directory)
    (keeps : KeepsBut t place u) (missing : u.node? place = none) (found : LeadsTo u dir m left') :
    ∀ v, KeepsBut t place v → LeadsTo v dir l left := by
  rcases leads.spares_or_through not_directory with spares | ⟨-, fails⟩
  · exact spares
  · exact absurd found (fails u keeps missing m left')

/-- The path leads to the same place in a tree in which there is more. -/
theorem mono (leads : LeadsTo t dir l left) (here : u.here = t.here)
    (more : ∀ place n, t.node? place = some n → u.node? place = some n) : LeadsTo u dir l left :=
  leads.congr here fun place n node _ => more place n node

end LeadsTo

/-! ### Entries that a path goes through -/

/-- What is walked with other names behind it is walked by itself, too. -/
theorem advance_prefix {l : Location} {way rest : List Name} {halt : Halt}
    (walked : advance t l (way ++ rest) = .ok halt) :
    (∃ r, advance t l way = .ok (.reached r)) ∨
      ∃ dir target todo, halt = .link dir target (todo ++ rest) ∧
        advance t l way = .ok (.link dir target todo) := by
  induction way generalizing l with
  | nil => exact Or.inl ⟨l, rfl⟩
  | cons name way ih =>
    have directory := directory_of_advance walked
    rw [List.cons_append] at walked
    by_cases ne_here : name = Path.here
    · subst ne_here
      rw [advance_here directory] at walked ⊢
      exact ih walked
    by_cases ne_above : name = Path.above
    · subst ne_above
      rw [advance_above directory] at walked ⊢
      exact ih walked
    obtain ⟨short, cases⟩ := cases_of_advance_name ne_here ne_above walked
    rw [advance_name directory ne_here ne_above, if_neg (Nat.not_lt.mpr short)]
    rcases cases with ⟨target, node, rfl⟩ | ⟨node, walked⟩ | ⟨n, node, still, none, rfl⟩
    · rw [node]
      exact Or.inr ⟨l, target, way, rfl, rfl⟩
    · rw [node]
      exact ih walked
    · obtain ⟨rfl, rfl⟩ := List.append_eq_nil_iff.mp none
      rw [node]
      cases n with
      | directory | link => exact absurd trivial still
      | file | device => exact Or.inl ⟨_, rfl⟩

/-- **The beginning of a walk is a walk**, unless there are too few links left for it. -/
theorem follow_prefix {links : Nat} {l : Location} {way rest : List Name} {found : Location × Nat}
    (walked : follow t links l (way ++ rest) = .ok found) (fewer : Nat) :
    (∃ found, follow t fewer l way = .ok found) ∨ follow t fewer l way = .error .loop := by
  obtain ⟨r, left⟩ := found
  induction links using Nat.strongRecOn generalizing l way fewer with
  | ind links ih =>
    rcases cases_of_follow walked with ⟨halted, -⟩ | ⟨dir, target, more, links, halted, rfl, onward⟩
    · rcases advance_prefix halted with ⟨place, reached⟩ | ⟨_, _, _, none, _⟩
      · exact Or.inl ⟨_, follow_of_reached reached⟩
      · cases none
    · rcases advance_prefix halted with ⟨place, reached⟩ | ⟨_, _, todo, link, halted'⟩
      · exact Or.inl ⟨_, follow_of_reached reached⟩
      · obtain ⟨rfl, rfl, rfl⟩ := Halt.link.inj link
        cases fewer with
        | zero =>
          right
          unfold follow
          rw [halted']
        | succ fewer =>
          rw [follow_of_link halted']
          rw [← List.append_assoc] at onward
          exact ih links (Nat.lt_succ_self links) fewer onward

/-- An entry through which a walk goes is present, unless its path takes too many links. -/
theorem present_or_loop_of_through {dir : Path} {l : Location} {left : Nat} {name : Name}
    (nameable : Nameable dir name) (leads : LeadsTo t dir l left)
    (through : Through t (l ++ [name])) :
    (∃ r, t.resolve (dir.join name) = .ok r) ∨ t.resolve (dir.join name) = .error .loop := by
  obtain ⟨above, last, target, links, rest, found, same, node, walked⟩ := through
  obtain ⟨rfl, -⟩ := List.append_inj' same rfl
  have halted := advance_entry nameable.isName leads.directory
  rw [if_neg (Nat.not_lt.mpr nameable.short), node] at halted
  rw [resolve_join nameable.isName leads nameable.fits]
  cases left with
  | zero =>
    right
    unfold follow
    rw [halted]
    rfl
  | succ left =>
    rw [follow_of_link halted, List.append_nil]
    rcases follow_prefix walked left with ⟨_, whole⟩ | loop
    · rw [whole]
      exact Or.inl ⟨_, rfl⟩
    · rw [loop]
      exact Or.inr rfl

/-- **An entry without which a directory is not found any more is present**, unless its path takes
too many links. -/
theorem present_or_loop {dir : Path} {l : Location} {left : Nat} {name : Name}
    (nameable : Nameable dir name) (leads : LeadsTo t dir l left)
    (lost : ¬ LeadsTo (t.remove (l ++ [name])) dir l left) :
    (∃ r, t.resolve (dir.join name) = .ok r) ∨ t.resolve (dir.join name) = .error .loop := by
  by_cases directory : t.node? (l ++ [name]) = some .directory
  · have halted := advance_entry nameable.isName leads.directory
    rw [if_neg (Nat.not_lt.mpr nameable.short), directory] at halted
    rw [resolve_join nameable.isName leads nameable.fits, follow_of_reached halted]
    exact Or.inl ⟨_, rfl⟩
  · rcases leads.spares_or_through directory with spares | ⟨through, -⟩
    · exact absurd (spares _ (keepsBut_remove t (place_ne_nil l name))) lost
    · exact present_or_loop_of_through nameable leads through

/-! ### Too many links -/

/-- A path is not refused by itself for the links that it leads through. -/
theorem checkPath_ne_loop (p : Path) : checkPath p ≠ .error .loop := by
  unfold checkPath checkBytes
  split
  · rintro ⟨⟩
  · change (if p = [] then _ else _) ≠ _
    repeat' split
    all_goals rintro ⟨⟩

theorem advance_ne_loop (t : FileTree) (l : Location) (todo : List Name) :
    advance t l todo ≠ .error .loop := by
  induction todo generalizing l with
  | nil => simp [advance]
  | cons name todo ih =>
    unfold advance
    repeat' split
    all_goals first | exact ih _ | simp

/-- A walk that takes too many links takes too many in every tree in which there is more. -/
theorem follow_loop (more : ∀ place n, t.node? place = some n → u.node? place = some n)
    {links : Nat} {l : Location} {todo : List Name} (loop : follow t links l todo = .error .loop) :
    follow u links l todo = .error .loop := by
  induction links generalizing l todo with
  | zero =>
    unfold follow at loop ⊢
    cases halted : advance t l todo with
    | error fault =>
      rw [halted] at loop
      obtain rfl := Except.error.inj loop
      exact absurd halted (advance_ne_loop t l todo)
    | ok halt =>
      cases halt with
      | reached =>
        rw [halted] at loop
        cases loop
      | link dir target rest =>
        obtain ⟨name, node, same⟩ := halts_of_advance halted
        rw [same u fun above => more above _, more _ _ node]
  | succ links ih =>
    cases halted : advance t l todo with
    | error fault =>
      unfold follow at loop
      rw [halted] at loop
      obtain rfl := Except.error.inj loop
      exact absurd halted (advance_ne_loop t l todo)
    | ok halt =>
      cases halt with
      | reached =>
        rw [follow_of_reached halted] at loop
        cases loop
      | link dir target rest =>
        obtain ⟨name, node, same⟩ := halts_of_advance halted
        have halted' := same u fun above => more above _
        rw [more _ _ node] at halted'
        rw [follow_of_link halted] at loop
        rw [follow_of_link halted']
        exact ih loop

theorem resolve_loop (here : u.here = t.here)
    (more : ∀ place n, t.node? place = some n → u.node? place = some n) {p : Path}
    (loop : t.resolve p = .error .loop) : u.resolve p = .error .loop := by
  unfold resolve at loop ⊢
  cases fits : checkPath p with
  | error fault =>
    rw [fits] at loop
    exact loop
  | ok =>
    rw [fits] at loop
    cases walked : follow t linkLimit (origin t.here p) (steps p) with
    | ok found =>
      rw [walked] at loop
      cases loop
    | error fault =>
      rw [walked] at loop
      obtain rfl := Except.error.inj loop
      rw [here, follow_loop more walked]
      rfl

/-- A path that takes too many links can name an entry. -/
theorem nameable_of_loop {dir : Path} {l : Location} {left : Nat} {name : Name}
    (isName : Path.IsName name) (leads : LeadsTo t dir l left)
    (loop : t.resolve (dir.join name) = .error .loop) : Nameable dir name := by
  have fits : checkPath (dir.join name) = .ok () := by
    unfold resolve at loop
    cases checked : checkPath (dir.join name) with
    | ok => rfl
    | error fault =>
      rw [checked] at loop
      obtain rfl := Except.error.inj loop
      exact absurd checked (checkPath_ne_loop _)
  refine ⟨isName, fits, Nat.le_of_not_lt fun long => ?_⟩
  have halted := advance_entry isName leads.directory
  rw [if_pos long] at halted
  rw [resolve_join isName leads fits] at loop
  unfold follow at loop
  rw [halted] at loop
  cases loop

end CompilerWrapper.FileTree
