import CompilerWrapper.Proofs.Install.Interruption

/-!
# What an install leaves alone

An install touches the entries of its names and nothing else, whatever those entries are and
wherever it fails or is cut off (`run_spares`). Each step works on entries and not on what a link
under their names leads to. What has to be shown is that the path of the directory means one
directory all the time, since it may lead through those entries itself.

Where an entry is removed that the path leads through, the directory is not found any more, and then
no step changes anything. The one step that puts another entry in the place of the first at once is
that which moves a tool aside. It is taken only where there is no real compiler, and an entry that a
path leads through is there, unless its own path takes more links than are followed
(`run_through_loop`).
-/

namespace CompilerWrapper.Install

open FileTree

variable {plan : Plan} {t u v : FileTree} {l place : Location} {left : Nat}

instance (plan : Plan) (l place : Location) : Decidable (plan.Spares l place) := by
  unfold Plan.Spares
  infer_instance

/-! ### A directory that stays where it is -/

theorem nameAt_ne_realAt (l : Location) (name : String) : nameAt l name ≠ realAt l name := by
  intro same
  have length := congrArg String.length (nameAt_inj same)
  have suffix : realSuffix.length = 5 := rfl
  rw [String.length_append] at length
  omega

theorem cleared_remove (t : FileTree) (ne : place ≠ [])
    (not_directory : t.node? place ≠ some .directory) : Cleared t place (t.remove place) :=
  ⟨rfl, not_directory, node?_remove t ne⟩

theorem differs_put (t : FileTree) (ne : place ≠ []) {kind : Node → Prop} {n : Node}
    (isKind : kind n) : Differs t place kind (t.put place n) := by
  refine ⟨rfl, ?_, ?_⟩
  · intro m node
    rw [node?_put t ne, if_pos rfl] at node
    exact Or.inr (Option.some.inj node ▸ isKind)
  · intro other apart
    rw [node?_put t ne, if_neg apart]

/-- The directory is at the place, and no real compiler is on the way to it that takes too many
links. -/
structure Plan.Steady (plan : Plan) (l : Location) (left : Nat) (t : FileTree) : Prop where
  leads : LeadsTo t plan.dir l left
  apart : ∀ tool ∈ plan.tools, t.resolve (plan.realPath tool) = .error .loop →
    LeadsTo (t.remove (realAt l tool)) plan.dir l left

namespace Plan.Steady

/-- An entry was removed, and the directory is still found. -/
theorem cleared (steady : plan.Steady l left t) (cleared : Cleared t place u) {m : Location}
    {left' : Nat} (found : LeadsTo u plan.dir m left') : plan.Steady l left u := by
  have leads := steady.leads.of_found cleared.not_directory cleared.keepsBut cleared.missing found
  refine ⟨leads u cleared.keepsBut, ?_⟩
  intro tool mem loop
  have before := steady.apart tool mem (resolve_loop cleared.here.symm (fun _ _ => cleared.sub) loop)
  have ne := realAt_ne_nil l tool
  have not_directory : (t.remove (realAt l tool)).node? place ≠ some .directory :=
    fun directory => cleared.not_directory ((node?_remove_eq_some_iff ne).mp directory).2
  -- The way to the directory spares both entries.
  exact before.of_found not_directory (cleared.keepsBut.of_remove ne) cleared.missing found _
    (cleared.keepsBut.remove ne)

/-- An entry was made where nothing was. -/
theorem filled (isName : ∀ name ∈ plan.names, Path.IsName (Bytes.ofText name))
    (steady : plan.Steady l left t) (missing : t.node? place = none) {n : Node}
    (replaced : Replaced t place n u) : plan.Steady l left u := by
  have more : ∀ other m, t.node? other = some m → u.node? other = some m := by
    intro other m node
    rw [replaced.node?, if_neg, node]
    rintro rfl
    cases missing.symm.trans node
  have leads := steady.leads.mono replaced.here more
  refine ⟨leads, fun tool mem loop => ?_⟩
  have nameable := nameable_of_loop (isName_real (isName tool (mem_names_of_tool mem))) leads loop
  by_cases apart : LeadsTo (t.remove (realAt l tool)) plan.dir l left
  · refine apart.mono replaced.here fun other m node => ?_
    obtain ⟨ne, node⟩ := (node?_remove_eq_some_iff (realAt_ne_nil l tool)).mp node
    exact (node?_remove_eq_some_iff (realAt_ne_nil l tool)).mpr ⟨ne, more other m node⟩
  · rcases present_or_loop nameable steady.leads apart with ⟨r, present⟩ | before
    · have present := resolve_congr replaced.here (fun other m node _ => more other m node) present
        (more r)
      cases loop.symm.trans present
    · exact absurd (steady.apart tool mem before) apart

/-- A tool was moved aside because it had no real compiler. -/
theorem moved (isName : ∀ name ∈ plan.names, Path.IsName (Bytes.ofText name))
    (steady : plan.Steady l left t) {tool : String} (mem : tool ∈ plan.tools)
    (nameable : Nameable plan.dir (Bytes.ofText (tool ++ realSuffix)))
    (absent : ¬ t.isPresent (plan.realPath tool) = true)
    (name : t.node? (nameAt l tool) ≠ some .directory)
    (real : t.node? (realAt l tool) ≠ some .directory) {n : Node} {m : Location} {left' : Nat}
    (found : LeadsTo ((t.remove (nameAt l tool)).put (realAt l tool) n) plan.dir m left') :
    plan.Steady l left ((t.remove (nameAt l tool)).put (realAt l tool) n) := by
  have ne := nameAt_ne_realAt l tool
  -- The way to the directory does not lead through the real compiler, which would be present.
  have spared : LeadsTo (t.remove (realAt l tool)) plan.dir l left := by
    by_contra lost
    rcases present_or_loop nameable steady.leads lost with ⟨r, present⟩ | loop
    · refine absent ?_
      unfold FileTree.isPresent
      rw [Plan.realPath, present]
      rfl
    · exact lost (steady.apart tool mem loop)
  have without := steady.cleared (cleared_remove t (realAt_ne_nil l tool) real) spared
  have name' : (t.remove (realAt l tool)).node? (nameAt l tool) ≠ some .directory :=
    fun directory => name ((node?_remove_eq_some_iff (realAt_ne_nil l tool)).mp directory).2
  have view : ∀ place,
      ((t.remove (nameAt l tool)).put (realAt l tool) n).node? place =
        if place = realAt l tool then some n
        else ((t.remove (realAt l tool)).remove (nameAt l tool)).node? place := by
    intro place
    rw [node?_put _ (realAt_ne_nil l tool), node?_remove _ (nameAt_ne_nil l tool),
      node?_remove _ (nameAt_ne_nil l tool), node?_remove t (realAt_ne_nil l tool)]
    split
    · rfl
    · rfl
  have cleared := cleared_remove (t.remove (realAt l tool)) (nameAt_ne_nil l tool) name'
  have real' :
      ((t.remove (realAt l tool)).remove (nameAt l tool)).node? (realAt l tool) = none := by
    rw [cleared.node?, if_neg ne.symm, node?_remove t (realAt_ne_nil l tool), if_pos rfl]
  have missing :
      ((t.remove (nameAt l tool)).put (realAt l tool) n).node? (nameAt l tool) = none := by
    rw [view, if_neg ne, cleared.missing]
  have keeps : KeepsBut (t.remove (realAt l tool)) (nameAt l tool)
      ((t.remove (nameAt l tool)).put (realAt l tool) n) := by
    refine ⟨rfl, fun other m apart node => ?_⟩
    rw [view, if_neg ((node?_remove_eq_some_iff (realAt_ne_nil l tool)).mp node).1]
    exact cleared.keepsBut.node? other m apart node
  have found := without.leads.of_found name' keeps missing found _ cleared.keepsBut
  exact (without.cleared cleared found).filled isName real' ⟨rfl, by simp [real'], view⟩

end Plan.Steady

/-! ### One step -/

/-- What an install keeps: everything that it spares, and the entries of tools are no directories.
The directory is where it was, as far as it is still found. -/
structure Plan.Framed (plan : Plan) (l : Location) (left : Nat) (t u : FileTree) : Prop where
  steady : ∀ {m left'}, LeadsTo u plan.dir m left' → plan.Steady l left u
  tools : ∀ tool ∈ plan.tools, u.node? (nameAt l tool) ≠ some .directory
  frame : ∀ place, plan.Spares l place → u.node? place = t.node? place

/-- Clearing does nothing, or it removes the entry of its name. -/
theorem clear_cases {name : Name} (isName : Path.IsName name)
    (taken : ((Step.clear (plan.dir.join name)).run plan t).tree = .ok u) :
    u = t ∨ ∃ l left, LeadsTo t plan.dir l left ∧ Cleared t (l ++ [name]) u := by
  by_cases spotted : ∃ s, t.spot (plan.dir.join name) = .ok s
  · obtain ⟨s, found⟩ := spotted
    obtain ⟨nameable, l, left, leads, -⟩ := nameable_of_spot isName found
    exact Or.inr ⟨l, left, leads, clear_run nameable leads taken⟩
  · -- An entry that is present has a spot.
    have absent : ¬ t.isPresent (plan.dir.join name) = true := by
      intro present
      obtain ⟨_, resolved⟩ := exists_of_isPresent present
      obtain ⟨l, dir⟩ := resolve_dir_of_join isName resolved
      obtain ⟨left, leads⟩ := leadsTo_of_resolve dir
      exact spotted ⟨_, (entry_of_resolve_join isName leads resolved).1.spot leads⟩
    have not_entered : ¬ t.isEntered (plan.dir.join name) = true := by
      unfold isEntered
      cases found : t.spot (plan.dir.join name) with
      | error => exact absent
      | ok s => exact absurd ⟨s, found⟩ spotted
    rw [tree_clear, if_neg not_entered] at taken
    exact Or.inl (Except.ok.inj taken).symm

namespace Plan.Framed

variable {name : Name} {m : Location} {left' : Nat}

/-- One entry that an install may touch was changed. -/
theorem differs (framed : plan.Framed l left t u) (touched : ¬ plan.Spares l place)
    {kind : Node → Prop} (differs : Differs u place kind v) (other : ¬ kind .directory)
    (steady : ∀ {m left'}, LeadsTo v plan.dir m left' → plan.Steady l left v) :
    plan.Framed l left t v := by
  refine ⟨steady, ?_, ?_⟩
  · intro tool mem directory
    by_cases same : nameAt l tool = place
    · subst same
      rcases differs.entry _ directory with before | isKind
      · exact framed.tools tool mem before
      · exact other isKind
    · rw [differs.frame _ same] at directory
      exact framed.tools tool mem directory
  · intro spared h
    have ne : spared ≠ place := by
      rintro rfl
      exact touched h
    rw [differs.frame spared ne, framed.frame spared h]

theorem cleared (framed : plan.Framed l left t u) (touched : ¬ plan.Spares l place)
    (steady : plan.Steady l left u) (cleared : Cleared u place v) : plan.Framed l left t v :=
  framed.differs touched (cleared.differs fun _ => False) id fun leads =>
    steady.cleared cleared leads

theorem of_clear (framed : plan.Framed l left t u) (isName : Path.IsName name)
    (touched : ¬ plan.Spares l (l ++ [name]))
    (taken : ((Step.clear (plan.dir.join name)).run plan u).tree = .ok v) :
    plan.Framed l left t v := by
  rcases clear_cases isName taken with rfl | ⟨m, left', leads, cleared⟩
  · exact framed
  · have steady := framed.steady leads
    obtain ⟨rfl, rfl⟩ := leads.unique steady.leads
    exact framed.cleared touched steady cleared

/-- Where the directory is found once an entry was cleared away, nothing is in its place, and it may
be made again. -/
theorem make (isName : ∀ name ∈ plan.names, Path.IsName (Bytes.ofText name))
    (framed : plan.Framed l left t u) (touched : ¬ plan.Spares l (l ++ [name]))
    (nameable : Nameable plan.dir name)
    (taken : ((Step.clear (plan.dir.join name)).run plan u).tree = .ok v)
    (leads : LeadsTo v plan.dir m left') :
    m = l ∧ v.node? (l ++ [name]) = none ∧
      ∀ n, n ≠ .directory → plan.Framed l left t (v.put (l ++ [name]) n) := by
  have framed' := framed.of_clear nameable.isName touched taken
  have steady' := framed'.steady leads
  obtain ⟨rfl, rfl⟩ := leads.unique steady'.leads
  have found : LeadsTo u plan.dir m left' := by
    rcases clear_cases nameable.isName taken with rfl | ⟨_, _, leads', -⟩
    · exact leads
    · exact (framed.steady leads').leads
  have missing := (clear_run nameable found taken).missing
  refine ⟨rfl, missing, fun n kind => ?_⟩
  have replaced : Replaced v (m ++ [name]) n (v.put (m ++ [name]) n) :=
    ⟨rfl, by simp [missing], node?_put v (place_ne_nil m name) n⟩
  have differs : Differs v (m ++ [name]) (· ≠ .directory) (v.put (m ++ [name]) n) :=
    differs_put v (place_ne_nil m name) kind
  exact framed'.differs touched differs (by simp)
    fun _ => steady'.filled isName missing replaced

/-! ### The groups of steps -/

theorem of_setAside (isName : ∀ name ∈ plan.names, Path.IsName (Bytes.ofText name))
    (framed : plan.Framed l left t u) {tool : String} (mem : tool ∈ plan.tools)
    (cut : Interrupted plan u [.setAside tool] v) : plan.Framed l left t v := by
  cases cut with
  | stopped => exact framed
  | taken taken cut =>
    obtain rfl := eq_of_interrupted_nil cut
    rw [tree_setAside] at taken
    split at taken
    next => exact Except.ok.inj taken ▸ framed
    next absent =>
      split at taken
      next =>
        have named := mem_names_of_tool mem
        have ne : Bytes.ofText tool ≠ Bytes.ofText (tool ++ realSuffix) :=
          fun same => nameAt_ne_realAt l tool (congrArg (l ++ [·]) same)
        obtain ⟨nameable, m, left', leads, moves⟩ := of_rename_join (isName tool named)
          (isName_real (isName tool named)) ne (ok_of_mapError taken)
        have steady := framed.steady leads
        obtain ⟨rfl, rfl⟩ := leads.unique steady.leads
        obtain ⟨real, n, node, rfl⟩ := moves (framed.tools tool mem)
        have kind : n ≠ .directory := by
          rintro rfl
          exact framed.tools tool mem node
        have first := framed.cleared (not_spares_nameAt named) steady
          (cleared_remove u (nameAt_ne_nil m tool) (framed.tools tool mem))
        have second : Differs _ (realAt m tool) (· ≠ .directory) _ :=
          differs_put (u.remove (nameAt m tool)) (realAt_ne_nil m tool) kind
        exact first.differs (not_spares_realAt named) second (by simp) fun leads =>
          steady.moved isName mem nameable absent (framed.tools tool mem) real leads
      next => cases taken

theorem of_link (isName : ∀ name ∈ plan.names, Path.IsName (Bytes.ofText name))
    (framed : plan.Framed l left t u) {a : Alias} (mem : a ∈ plan.aliases)
    (cut : Interrupted plan u [.check a, .clear (plan.realPath a.name), .link a] v) :
    plan.Framed l left t v := by
  have named := mem_names_of_alias mem
  have real := isName_real (isName a.name named)
  have touched : ¬ plan.Spares l (l ++ [Bytes.ofText (a.name ++ realSuffix)]) :=
    not_spares_realAt named
  cases cut with
  | stopped => exact framed
  | taken check cut =>
    obtain ⟨-, rfl⟩ := check_run check
    cases cut with
    | stopped => exact framed
    | taken clear cut =>
      cases cut with
      | stopped => exact framed.of_clear real touched clear
      | taken link cut =>
        obtain rfl := eq_of_interrupted_nil cut
        obtain ⟨-, nameable, m, left', leads, -, rfl⟩ :=
          (symlink_join_iff real).mp (ok_of_mapError link)
        obtain ⟨rfl, -, framed⟩ := framed.make isName touched nameable clear leads
        exact framed _ (by simp)

theorem of_place (isName : ∀ name ∈ plan.names, Path.IsName (Bytes.ofText name))
    (framed : plan.Framed l left t u) {name : String} (mem : name ∈ plan.names)
    (cut : Interrupted plan u [.clear (plan.path name), .place name] v) :
    plan.Framed l left t v := by
  have touched : ¬ plan.Spares l (l ++ [Bytes.ofText name]) := not_spares_nameAt mem
  cases cut with
  | stopped => exact framed
  | taken clear cut =>
    cases cut with
    | stopped => exact framed.of_clear (isName name mem) touched clear
    | copying _ part =>
      obtain ⟨_, _, _, opened, bits, part, -, -, at_place, -, -, rfl⟩ := part
      obtain ⟨nameable, m, left', leads⟩ := nameable_of_openPlace (isName name mem) at_place
      obtain ⟨rfl, missing, framed⟩ := framed.make isName touched nameable clear leads
      obtain rfl := Except.ok.inj (at_place.symm.trans (openPlace_join nameable leads missing))
      exact framed _ (by simp)
    | taken taken cut =>
      obtain rfl := eq_of_interrupted_nil cut
      rw [tree_place] at taken
      have copied := ok_of_mapError taken
      obtain ⟨⟨nameable, m, left', leads⟩, source, mode, contents, resolved, node⟩ :=
        nameable_of_copy (isName name mem) copied
      obtain ⟨rfl, missing, framed⟩ := framed.make isName touched nameable clear leads
      obtain rfl := Except.ok.inj ((copy_join nameable leads missing resolved node).symm.trans copied)
      exact framed _ (by simp)

end Plan.Framed

/-! ### A whole install -/

/-- What an install leaves that failed is what it leaves if it is cut off there. -/
theorem interrupted_runSteps (plan : Plan) (t : FileTree) (steps : List Step) :
    Interrupted plan t steps (runSteps plan t steps).tree := by
  induction steps generalizing t with
  | nil => exact .stopped t []
  | cons step steps ih =>
    have result : ∃ told tree, step.run plan t = ⟨told, tree⟩ := ⟨_, _, rfl⟩
    obtain ⟨told, tree, result⟩ := result
    rw [runSteps, result]
    cases tree with
    | error failure => exact .stopped t _
    | ok u => exact .taken (congrArg Result.tree result) (ih u)

/-- Wherever the steps of an install stop, they have kept what stood at every other place. -/
theorem Plan.Framed.of_steps (start : plan.Framed l left t t)
    (isName : ∀ name ∈ plan.names, Path.IsName (Bytes.ofText name))
    (cut : Interrupted plan t plan.steps u) : plan.Framed l left t u := by
  have aside : ∀ {v}, Interrupted plan t (plan.tools.map .setAside) v → plan.Framed l left t v := by
    intro v cut
    rw [List.map_eq_flatMap] at cut
    exact cut.flatMap (fun tool mem _ _ framed => framed.of_setAside isName mem) start
  have linking : ∀ {v w}, plan.Framed l left t v →
      Interrupted plan v
        (plan.aliases.flatMap fun a => [.check a, .clear (plan.realPath a.name), .link a]) w →
          plan.Framed l left t w :=
    fun framed cut => cut.flatMap (fun a mem _ _ framed => framed.of_link isName mem) framed
  unfold Plan.steps at cut
  rcases interrupted_append cut with cut | ⟨mid, completes, cut⟩
  · rcases interrupted_append cut with cut | ⟨mid, completes, cut⟩
    · exact aside cut
    · exact linking (aside (interrupted_of_completes completes)) cut
  · obtain ⟨first, moved, linked⟩ := completes_append_iff.mp completes
    have framed := linking (aside (interrupted_of_completes moved)) (interrupted_of_completes linked)
    exact cut.flatMap (fun name mem _ _ framed => framed.of_place isName mem) framed

/-- **An install touches the entries of its names and nothing else**, whether it succeeds, fails at
some step, or is cut off. The entries may be links of all kinds; what a name was a link to stays as
it was. The path of the directory may even lead through them, as long as it does not lead through
the real compiler of a tool whose own path takes too many links. -/
theorem run_spares (isName : ∀ name ∈ plan.names, Path.IsName (Bytes.ofText name))
    (dir : t.resolve (plan.dir.join Path.here) = .ok l)
    (tools : ∀ tool ∈ plan.tools, t.node? (nameAt l tool) ≠ some .directory)
    (apart : ∀ tool ∈ plan.tools, t.resolve (plan.realPath tool) = .error .loop →
      (t.remove (realAt l tool)).resolve (plan.dir.join Path.here) = .ok l) :
    ∀ u, u = (run plan t).tree ∨ Interrupted plan t plan.steps u →
      ∀ place, plan.Spares l place → u.node? place = t.node? place := by
  obtain ⟨left, leads⟩ := leadsTo_of_resolve dir
  have steady : plan.Steady l left t := by
    refine ⟨leads, fun tool mem loop => ?_⟩
    obtain ⟨left', without⟩ := leadsTo_of_resolve (apart tool mem loop)
    have same := without.mono (u := t) rfl fun _ _ node =>
      ((node?_remove_eq_some_iff (realAt_ne_nil l tool)).mp node).2
    obtain ⟨-, rfl⟩ := leads.unique same
    exact without
  have start : plan.Framed l left t t := ⟨fun _ => steady, tools, fun _ _ => rfl⟩
  rintro u (rfl | cut)
  · exact (start.of_steps isName (interrupted_runSteps plan t plan.steps)).frame
  · exact (start.of_steps isName cut).frame

/-! ### Links under the names of an install -/

namespace Links

/-- The directory of the compilers. -/
def bin : Location := [Bytes.ofText "bin"]

/-- Another directory, of which an install is told nothing. -/
def other : Location := [Bytes.ofText "other"]

/-- A compiler with its version in its name, two links that lead to it, a link that leads nowhere,
one that leads to itself, and the wrapper. -/
def versions : FileTree where
  nodes := [(bin, .directory), (nameAt bin "clang-18", .file 0o755 [1]),
    (nameAt bin "clang", .link (Bytes.ofText "clang-18")),
    (nameAt bin "clang++", .link (Bytes.ofText "clang")),
    (realAt bin "clang++", .link (Bytes.ofText "clang++-18")),
    (nameAt bin "clang-tidy", .file 0o755 [2]),
    (realAt bin "clang-tidy", .link (Bytes.ofText "clang-tidy.real")),
    ([Bytes.ofText "ccwrap"], .file 0o755 [0])]
  here := []

/-- Wraps two tools and an alias. -/
def both : Plan where
  dir := Bytes.ofText "/bin"
  wrapper := Bytes.ofText "/ccwrap"
  tools := ["clang", "clang-tidy"]
  aliases := [⟨"clang++", "clang"⟩]

/-- A tool is a link into the other directory, which has an entry of the same name, and what is
called like its real compiler leads to a directory by two links. -/
def crossing : FileTree where
  nodes := [(bin, .directory), (nameAt bin "sub", .directory),
    (nameAt bin "hop", .link (Bytes.ofText "sub")),
    (realAt bin "clang", .link (Bytes.ofText "hop")),
    (nameAt bin "clang", .link (Bytes.ofText "../other/sub")),
    (nameAt bin "l", .link (Bytes.ofText ".")),
    (other, .directory), (nameAt other "sub", .directory),
    (nameAt other "l", .link (Bytes.ofText ".")),
    (nameAt other "clang", .file 0o755 [1]), ([Bytes.ofText "ccwrap"], .file 0o755 [0])]
  here := []

/-- Comes to the directory by as many links that one more can be followed behind them. -/
def throughLoop : Plan where
  dir := Bytes.ofText "/bin/clang.real/.." ++ (List.replicate 37 (Bytes.ofText "/l")).flatten
  wrapper := Bytes.ofText "/ccwrap"
  tools := ["clang"]
  aliases := []

end Links

open Links

/-- The compiler to which the links under a tool and an alias lead stays as it was. -/
theorem run_spares_version :
    both.Spares bin (nameAt bin "clang-18") ∧
      versions.resolve (both.path "clang++") = .ok (nameAt bin "clang-18") ∧
      versions.resolve (both.realPath "clang-tidy") = .error .loop ∧
      (run both versions).failure? = none ∧
      (run both versions).tree.node? (nameAt bin "clang-18") = some (.file 0o755 [1]) := by
  have isName : ∀ name ∈ both.names, Path.IsName (Bytes.ofText name) := by decide +kernel
  have spared : both.Spares bin (nameAt bin "clang-18") := by decide +kernel
  have kept := run_spares (t := versions) (l := bin) isName (by decide +kernel)
    (by decide +kernel) (by decide +kernel) _ (Or.inl rfl) _ spared
  exact ⟨spared, by decide +kernel, by decide +kernel, by decide +kernel, kept⟩

/-- **An install changes an entry elsewhere if it takes a link away on which its directory hangs**,
and which it takes for missing because its path takes too many links. -/
theorem run_through_loop :
    (∀ name ∈ throughLoop.names, Path.IsName (Bytes.ofText name)) ∧
      crossing.resolve (throughLoop.dir.join Path.here) = .ok bin ∧
      (∀ name ∈ throughLoop.names, crossing.node? (nameAt bin name) ≠ some .directory ∧
        crossing.node? (realAt bin name) ≠ some .directory) ∧
      (run throughLoop crossing).failure? = none ∧
      throughLoop.Spares bin (nameAt other "clang") ∧
      crossing.node? (nameAt other "clang") = some (.file 0o755 [1]) ∧
      (run throughLoop crossing).tree.node? (nameAt other "clang") = some (.file 0o755 [0]) := by
  decide +kernel

end CompilerWrapper.Install
