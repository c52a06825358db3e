import CompilerWrapper.Proofs.FileTree.Removal
import CompilerWrapper.Proofs.Install.Aside

/-!
# Making an entry again

Linking an alias and placing the wrapper under a name change one entry each: the entry is removed
first (`Cleared`), and made again as the next thing (`Replaced`). That the directory is still found
in between is not assumed; it follows from the success of the second step.
-/

namespace CompilerWrapper.Install

open FileTree

variable {plan : Plan} {t u v : FileTree} {l : Location} {left : Nat}

/-- The second tree has nothing at the place, where there was no directory, and everything else as
the first one. -/
structure Cleared (t : FileTree) (place : Location) (u : FileTree) : Prop where
  here : u.here = t.here
  not_directory : t.node? place ≠ some .directory
  node? : ∀ other, u.node? other = if other = place then none else t.node? other

/-- The second tree has `n` at the place, where there was no directory, and everything else as the
first one. -/
structure Replaced (t : FileTree) (place : Location) (n : Node) (u : FileTree) : Prop where
  here : u.here = t.here
  not_directory : t.node? place ≠ some .directory
  node? : ∀ other, u.node? other = if other = place then some n else t.node? other

theorem Cleared.sub {place : Location} (cleared : Cleared t place u) {other : Location} {n : Node}
    (node : u.node? other = some n) : t.node? other = some n := by
  rw [cleared.node?] at node
  split at node
  · cases node
  · exact node

theorem Cleared.missing {place : Location} (cleared : Cleared t place u) : u.node? place = none :=
  (cleared.node? place).trans (if_pos rfl)

theorem Cleared.keepsBut {place : Location} (cleared : Cleared t place u) : KeepsBut t place u := by
  refine ⟨cleared.here, ?_⟩
  intro other n ne node
  rw [cleared.node?, if_neg ne, node]

theorem Cleared.put {place : Location} (cleared : Cleared t place u) (ne : place ≠ []) (n : Node) :
    Replaced t place n (u.put place n) := by
  refine ⟨cleared.here, cleared.not_directory, ?_⟩
  intro other
  rw [node?_put u ne, cleared.node?]
  split
  · rfl
  · rfl

theorem Replaced.directories {place : Location} {n : Node} (replaced : Replaced t place n u)
    {other : Location} (directory : t.node? other = some .directory) :
    u.node? other = some .directory := by
  rw [replaced.node?, if_neg, directory]
  rintro rfl
  exact replaced.not_directory directory

/-- An entry can be cleared away unless it is a directory. -/
theorem clear_join {name : Name} (nameable : Nameable plan.dir name)
    (leads : LeadsTo t plan.dir l left) :
    ((Step.clear (plan.dir.join name)).run plan t).tree =
      match t.node? (l ++ [name]) with
      | none => .ok t
      | some .directory => .error (.refused (.removing (plan.dir.join name)) .isDirectory)
      | some _ => .ok (t.remove (l ++ [name])) := by
  rw [tree_clear, isEntered_join nameable leads, unlink_join nameable leads]
  cases t.node? (l ++ [name]) with
  | none => rfl
  | some n => cases n <;> rfl

theorem clear_run {name : Name} (nameable : Nameable plan.dir name)
    (leads : LeadsTo t plan.dir l left)
    (taken : ((Step.clear (plan.dir.join name)).run plan t).tree = .ok u) :
    Cleared t (l ++ [name]) u := by
  rw [clear_join nameable leads] at taken
  split at taken
  next missing =>
    obtain rfl := Except.ok.inj taken
    refine ⟨rfl, by simp [missing], ?_⟩
    intro other
    split
    next same => rw [same, missing]
    next => rfl
  next => cases taken
  next n other node =>
    obtain rfl := Except.ok.inj taken
    refine ⟨rfl, ?_, node?_remove t (place_ne_nil l name)⟩
    intro directory
    exact other (Option.some.inj (node.symm.trans directory))

/-- If the directory is still found once an entry was removed, it does not lead through the entry,
and so it is found whatever the entry becomes. -/
theorem put_again {name : Name} {place : Location} {left' : Nat} (leads : LeadsTo t plan.dir l left)
    (cleared : Cleared t (l ++ [name]) u) (leads' : LeadsTo u plan.dir place left') (n : Node) :
    place = l ∧ LeadsTo (u.put (l ++ [name]) n) plan.dir l left := by
  have found := leads.of_found cleared.not_directory cleared.keepsBut cleared.missing leads'
  obtain ⟨rfl, rfl⟩ := leads'.unique (found u cleared.keepsBut)
  refine ⟨rfl, found _ ⟨cleared.here, ?_⟩⟩
  intro other m ne node
  rw [node?_put u (place_ne_nil place name), if_neg ne]
  exact cleared.keepsBut.node? other m ne node

theorem check_run {a : Alias} (taken : ((Step.check a).run plan t).tree = .ok u) :
    a.target ∈ plan.tools ∧ t = u := by
  rw [tree_check] at taken
  split at taken
  next mem => exact ⟨mem, Except.ok.inj taken⟩
  next => cases taken

theorem link_run (apart : plan.Apart) (leads : LeadsTo t plan.dir l left) {a : Alias}
    (mem : a ∈ plan.aliases)
    (done : Completes plan t [.check a, .clear (plan.realPath a.name), .link a] u) :
    a.target ∈ plan.tools ∧ checkPath (Bytes.ofText (a.target ++ realSuffix)) = .ok () ∧
      Nameable plan.dir (Bytes.ofText (a.name ++ realSuffix)) ∧ LeadsTo u plan.dir l left ∧
      Replaced t (realAt l a.name) (.link (Bytes.ofText (a.target ++ realSuffix))) u := by
  have isName := isName_real (apart.isName a.name (mem_names_of_alias mem))
  obtain ⟨checked, check, done⟩ := completes_cons_iff.mp done
  obtain ⟨mid, clear, done⟩ := completes_cons_iff.mp done
  obtain ⟨last, link, done⟩ := completes_cons_iff.mp done
  obtain rfl := completes_nil_iff.mp done
  obtain ⟨target, rfl⟩ := check_run check
  obtain ⟨fits, nameable, place, left', leads', -, rfl⟩ :=
    (symlink_join_iff isName).mp (ok_of_mapError link)
  have cleared := clear_run nameable leads clear
  obtain ⟨rfl, found⟩ := put_again leads cleared leads'
    (.link (Bytes.ofText (a.target ++ realSuffix)))
  exact ⟨target, fits, nameable, found, cleared.put (place_ne_nil _ _) _⟩

/-- The wrapper that is to be copied is the file at a place. -/
structure Source (plan : Plan) (t : FileTree) (source : Location) (mode : Nat) (contents : Bytes) :
    Prop where
  resolved : t.resolve plan.wrapper = .ok source
  node : t.node? source = some (.file mode contents)

/-- The wrapper is found in every tree in which there is more. -/
theorem Source.mono {source : Location} {mode : Nat} {contents : Bytes}
    (found : Source plan t source mode contents) (here : u.here = t.here)
    (more : ∀ place n, t.node? place = some n → u.node? place = some n) :
    Source plan u source mode contents :=
  ⟨resolve_congr here (fun place n node _ => more place n node) found.resolved (more source),
    more source _ found.node⟩

theorem place_run {name : String} (isName : Path.IsName (Bytes.ofText name))
    (leads : LeadsTo t plan.dir l left)
    (done : Completes plan t [.clear (plan.path name), .place name] u) :
    Nameable plan.dir (Bytes.ofText name) ∧ ∃ source mode contents,
      Source plan t source mode contents ∧ Source plan u source mode contents ∧
      source ≠ nameAt l name ∧ LeadsTo u plan.dir l left ∧
      Replaced t (nameAt l name) (.file (modeAfterAdding mode contents) contents) u := by
  obtain ⟨mid, clear, done⟩ := completes_cons_iff.mp done
  obtain ⟨last, place, done⟩ := completes_cons_iff.mp done
  obtain rfl := completes_nil_iff.mp done
  rw [tree_place] at place
  have copied := ok_of_mapError place
  obtain ⟨⟨nameable, l', left', leads'⟩, source, mode, contents, resolved, node⟩ :=
    nameable_of_copy isName copied
  have cleared := clear_run nameable leads clear
  obtain ⟨rfl, -⟩ := put_again leads cleared leads' .directory
  have missing : mid.node? (nameAt l' name) = none := cleared.missing
  have copy := copy_join nameable leads' missing resolved node
  obtain rfl := Except.ok.inj (copy.symm.trans copied)
  obtain ⟨-, found⟩ := put_again leads cleared leads'
    (.file (modeAfterAdding mode contents) contents)
  have ne : ∀ other n, mid.node? other = some n → other ≠ nameAt l' name := by
    rintro _ n node rfl
    rw [missing] at node
    cases node
  have more : ∀ other n, mid.node? other = some n →
      (mid.put (nameAt l' name) (.file (modeAfterAdding mode contents) contents)).node? other =
        some n := by
    intro other n node
    rw [node?_put mid (nameAt_ne_nil l' name), if_neg (ne other n node), node]
  have source_mid : Source plan mid source mode contents := ⟨resolved, node⟩
  exact ⟨nameable, source, mode, contents,
    source_mid.mono cleared.here.symm fun _ _ => cleared.sub, source_mid.mono rfl more,
    ne source _ node, found, cleared.put (place_ne_nil _ _) _⟩

end CompilerWrapper.Install
