import CompilerWrapper.Proofs.Install.Interruption

/-!
# The outcome of an install

Into a directory of compilers in which nothing is in the way (`Installable`), an install succeeds
exactly if every tool has a compiler and every alias points at a tool, and then it leaves what
`Installed` says (`run_succeeds_iff`).

The install removes entries and makes them anew. What it needs in the meantime, the directory and
the wrapper, must therefore be found without those entries: `run_through_touched` shows an install
that fails because a link on the way to the wrapper is called like the real compiler of an alias,
and one that fails because a link on the way to the directory is called like an alias.
-/

namespace CompilerWrapper.Install

open FileTree

variable {plan : Plan} {t u v : FileTree} {l : Location} {left mode : Nat} {contents : Bytes}

/-! ### What is found without the entries that an install touches -/

/-- The places that an install may touch. -/
def Plan.touched (plan : Plan) (l : Location) : List Location :=
  plan.names.flatMap fun name => [nameAt l name, realAt l name]

theorem spares_iff {place : Location} : plan.Spares l place ↔ place ∉ plan.touched l := by
  unfold Plan.Spares Plan.touched
  simp

theorem node?_without_touched (t : FileTree) (plan : Plan) (l place : Location) :
    (t.without (plan.touched l)).node? place =
      if place ∈ plan.touched l then none else t.node? place := by
  apply node?_without
  intro place mem
  obtain ⟨name, -, mem⟩ := List.mem_flatMap.mp mem
  rcases (by simpa using mem : place = nameAt l name ∨ place = realAt l name) with rfl | rfl
  · exact nameAt_ne_nil l name
  · exact realAt_ne_nil l name

/-- What stands in a tree without the touched entries stands in every tree that has the same at the
other places. -/
theorem node?_of_without (same : ∀ place, plan.Spares l place → u.node? place = t.node? place)
    {place : Location} {n : Node} (node : (t.without (plan.touched l)).node? place = some n) :
    u.node? place = some n := by
  rw [node?_without_touched] at node
  split at node
  next => cases node
  next spared => rw [same place (spares_iff.mpr spared), node]

/-- The names of an install are apart and fit, and nothing is in their way. -/
structure Unobstructed (plan : Plan) (t : FileTree) (l : Location) : Prop where
  distinct : plan.Distinct
  nameable : ∀ name ∈ plan.names, Nameable plan.dir (Bytes.ofText name) ∧
    Nameable plan.dir (Bytes.ofText (name ++ realSuffix))
  files : ∀ tool ∈ plan.tools, HasFiles t l tool
  not_directory : ∀ a ∈ plan.aliases, t.node? (nameAt l a.name) ≠ some .directory ∧
    t.node? (realAt l a.name) ≠ some .directory

instance (plan : Plan) (t : FileTree) (l : Location) : Decidable (Unobstructed plan t l) :=
  decidable_of_iff (plan.Distinct ∧
      (∀ name ∈ plan.names, Nameable plan.dir (Bytes.ofText name) ∧
        Nameable plan.dir (Bytes.ofText (name ++ realSuffix))) ∧
      (∀ tool ∈ plan.tools, HasFiles t l tool) ∧
      ∀ a ∈ plan.aliases, t.node? (nameAt l a.name) ≠ some .directory ∧
        t.node? (realAt l a.name) ≠ some .directory)
    ⟨fun h => ⟨h.1, h.2.1, h.2.2.1, h.2.2.2⟩,
      fun h => ⟨h.distinct, h.nameable, h.files, h.not_directory⟩⟩

/-- Nothing is in the way of an install, and its directory and the wrapper are found without the
entries that it may touch. -/
structure Installable (plan : Plan) (t : FileTree) (l : Location) (mode : Nat) (contents : Bytes) :
    Prop extends Unobstructed plan t l where
  dir : (t.without (plan.touched l)).resolve (plan.dir.join Path.here) = .ok l
  wrapper : ∃ source, Source plan (t.without (plan.touched l)) source mode contents

namespace Installable

theorem unaffected (installable : Installable plan t l mode contents) :
    ∃ left, plan.Unaffected t l left := by
  obtain ⟨left, leads⟩ := leadsTo_of_resolve installable.dir
  refine ⟨left, fun u here same => leads.congr (here.trans (here_without t _).symm) ?_⟩
  exact fun place n node _ => node?_of_without same node

/-- The wrapper is found in every tree that differs in touched entries alone. -/
theorem found (installable : Installable plan t l mode contents) :
    ∃ source, ∀ u : FileTree, u.here = t.here →
      (∀ place, plan.Spares l place → u.node? place = t.node? place) →
        Source plan u source mode contents := by
  obtain ⟨source, found⟩ := installable.wrapper
  refine ⟨source, fun u here same => found.mono (here.trans (here_without t _).symm) ?_⟩
  exact fun place n node => node?_of_without same node

theorem resumes (installable : Installable plan t l mode contents) : Resumes plan l t t :=
  ⟨rfl, installable.files, fun _ _ => rfl, installable.not_directory, fun _ _ => rfl⟩

/-- Once tools are moved aside and aliases linked, no directory is in the way of a copy. -/
theorem placeable (distinct : plan.Distinct) (resumes : Resumes plan l t u)
    (linked : Linked plan l left plan.aliases u v) : plan.Placeable l v v := by
  refine ⟨rfl, fun _ _ => rfl, ?_⟩
  intro name mem
  rw [linked.frame _ fun a h => (real_ne_name distinct.apart mem (mem_names_of_alias h)).symm]
  rcases List.mem_append.mp mem with tool | aliased
  · intro directory
    obtain ⟨_, _, file⟩ := resumes.files name tool _ (Or.inl rfl) _ directory
    cases file
  · obtain ⟨a, isAlias, rfl⟩ := List.mem_map.mp aliased
    exact (resumes.not_directory a isAlias).1

/-- Where tools and targets are there, an install goes through. -/
theorem succeeds (installable : Installable plan t l mode contents)
    (compilers : ∀ tool ∈ plan.tools, (compiler? t l tool).isSome)
    (targets : ∀ a ∈ plan.aliases, a.target ∈ plan.tools) : (run plan t).failure? = none := by
  have distinct := installable.distinct
  have apart := distinct.apart
  obtain ⟨left, steady⟩ := installable.unaffected
  obtain ⟨source, found⟩ := installable.found
  obtain ⟨u, moving⟩ := setAside_completes apart steady.leads installable.files
    (fun tool h => installable.nameable tool (mem_names_of_tool h)) compilers
  obtain ⟨aside, -⟩ := setAside_phase apart (fun _ h => h) steady.leads installable.files moving
  have resumes := installable.resumes.aside distinct aside
  have fits : ∀ a ∈ plan.aliases, checkPath (Bytes.ofText (a.target ++ realSuffix)) = .ok () := by
    intro a h
    have nameable := (installable.nameable a.target (mem_names_of_tool (targets a h))).2
    refine checkPath_eq_ok_iff.mpr ⟨nameable.isName.no_zero, nameable.isName.ne_nil, ?_⟩
    exact Nat.lt_of_le_of_lt nameable.short (by decide)
  have unaffected := steady.congr resumes.here resumes.frame
  obtain ⟨v, linking⟩ := link_completes
    ⟨unaffected, fun a h => (resumes.not_directory a h).2⟩ targets fits
    fun a h => (installable.nameable a.name (mem_names_of_alias h)).2
  have linked := link_phase apart (fun _ h => h) unaffected.leads linking
  have here : v.here = t.here := linked.here.trans resumes.here
  have same : ∀ place, plan.Spares l place → v.node? place = t.node? place := by
    intro place spared
    rw [linked.frame place fun a h => (spared a.name (mem_names_of_alias h)).2,
      resumes.frame place spared]
  obtain ⟨w, placing, -⟩ := place_completes (steady.congr here same)
    (fun name h => (installable.nameable name h).1)
    (fun w placeable => found w (placeable.here.trans here) fun place spared =>
      (placeable.frame place fun name h => (spared name h).1).trans (same place spared))
    (placeable distinct resumes linked)
  have completes : Completes plan t plan.steps w :=
    completes_append_iff.mpr ⟨v, completes_append_iff.mpr ⟨u, moving, linking⟩, placing⟩
  exact completes.1

/-- What an install leaves that went through, every tool has a compiler and every target is a
tool. -/
theorem installed (installable : Installable plan t l mode contents)
    (done : (run plan t).failure? = none) : Installed plan t l mode contents (run plan t).tree := by
  have distinct := installable.distinct
  obtain ⟨left, steady⟩ := installable.unaffected
  obtain ⟨source, found⟩ := installable.found
  obtain ⟨u, v, aside, moved, linked, placing⟩ :=
    run_phases distinct.apart steady.leads installable.files done
  refine installed_of_phases distinct aside moved linked
    (place_phase distinct.isName linked.leads (found v ?_ ?_) placing)
  · exact linked.here.trans aside.here
  · intro place spared
    rw [linked.frame place fun a h => (spared a.name (mem_names_of_alias h)).2,
      aside.frame place fun tool h => spared tool (mem_names_of_tool h)]

end Installable

/-- **Which installs succeed, and what they leave.** An install into a directory in which nothing is
in the way succeeds exactly if every tool has a compiler and every alias points at a tool. Then the
compiler of every tool stands beside it, the last link of every alias points at the compiler of its
target, the wrapper stands under every name, with the permissions that it had, and everything else
is as it was. -/
theorem run_succeeds_iff (installable : Installable plan t l mode contents) :
    ((run plan t).failure? = none ↔ (∀ tool ∈ plan.tools, (compiler? t l tool).isSome) ∧
        ∀ a ∈ plan.aliases, a.target ∈ plan.tools) ∧
      ((run plan t).failure? = none → Installed plan t l mode contents (run plan t).tree ∧
        modeAfterAdding mode contents % 0o1000 = mode % 0o1000) := by
  constructor
  · constructor
    · intro done
      have installed := installable.installed done
      exact ⟨fun tool h => (installed.compilers tool h).1, installed.targets⟩
    · rintro ⟨compilers, targets⟩
      exact installable.succeeds compilers targets
  · intro done
    exact ⟨installable.installed done, modeAfterAdding_mod mode contents⟩

/-! ### Ways that are found, and ways that are lost -/

namespace Ways

/-- The directory of the compilers. -/
def bin : Location := [Bytes.ofText "bin"]

/-- The place of the wrapper. -/
def source : Location := [Bytes.ofText "tools", Bytes.ofText "ccwrap"]

/-- A compiler, another one that was wrapped before, the wrapper, and two links: one to the directory
of the wrapper, and one to a directory beside the compilers. -/
def tree : FileTree where
  nodes := [(bin, .directory), (nameAt bin "clang", .file 0o755 [1]),
    (nameAt bin "clang-tidy", .file 0o755 [9]), (realAt bin "clang-tidy", .file 0o700 [2]),
    (realAt bin "x", .link (Bytes.ofText "../tools")), (nameAt bin "y", .link (Bytes.ofText "sub")),
    (nameAt bin "sub", .directory), (source.dropLast, .directory), (source, .file 0o4755 [0])]
  here := []

/-- Names a tool and an alias twice. -/
def again : Plan where
  dir := Bytes.ofText "/bin"
  wrapper := Bytes.ofText "/tools/ccwrap"
  tools := ["clang", "clang-tidy", "clang"]
  aliases := [⟨"x", "clang"⟩, ⟨"y", "clang"⟩, ⟨"x", "clang-tidy"⟩]

/-- Comes to the wrapper by a link that is called like the real compiler of an alias. -/
def throughReal : Plan := { again with wrapper := Bytes.ofText "/bin/x.real/ccwrap" }

/-- Comes to the directory by a link that is called like an alias. -/
def throughName : Plan := { again with dir := Bytes.ofText "/bin/y/.." }

/-- Nothing is in the way of an install, its directory is there, the wrapper is a file that the
install does not touch, and all tools and targets are there. -/
def Complete (plan : Plan) : Prop :=
  Unobstructed plan tree bin ∧ tree.resolve (plan.dir.join Path.here) = .ok bin ∧
    tree.resolve plan.wrapper = .ok source ∧ plan.Spares bin source ∧
    (∀ tool ∈ plan.tools, (compiler? tree bin tool).isSome) ∧
    ∀ a ∈ plan.aliases, a.target ∈ plan.tools

instance (plan : Plan) : Decidable (Complete plan) := by
  unfold Complete Plan.Spares
  infer_instance

end Ways

open Ways

/-- A compiler is moved aside, one stays aside, and the last link of an alias counts. -/
theorem run_succeeds_again :
    (run again tree).failure? = none ∧
      (run again tree).tree.node? (realAt bin "clang") = some (.file 0o755 [1]) ∧
      (run again tree).tree.node? (realAt bin "clang-tidy") = some (.file 0o700 [2]) ∧
      (run again tree).tree.node? (realAt bin "x") = some (.link (Bytes.ofText "clang-tidy.real")) ∧
      (run again tree).tree.node? (nameAt bin "y") = some (.file 0o755 [0]) := by
  have unobstructed : Unobstructed again tree bin := by decide +kernel
  have installable : Installable again tree bin 0o4755 [0] :=
    ⟨unobstructed, by decide +kernel, source, by decide +kernel, by decide +kernel⟩
  have compilers : ∀ tool ∈ again.tools, (compiler? tree bin tool).isSome := by decide +kernel
  have targets : ∀ a ∈ again.aliases, a.target ∈ again.tools := by decide
  obtain ⟨exactly, leaves⟩ := run_succeeds_iff installable
  have done := exactly.mpr ⟨compilers, targets⟩
  obtain ⟨installed, -⟩ := leaves done
  refine ⟨done, ?_, ?_, ?_, ?_⟩
  · exact (installed.compilers "clang" (by decide)).2
  · exact (installed.compilers "clang-tidy" (by decide)).2
  · exact installed.links "x" "clang-tidy" (by decide)
  · exact (installed.wrapped "y" (by decide)).2

/-- **An install fails whose way to the wrapper or to the directory it removes itself.** -/
theorem run_through_touched :
    Complete throughReal ∧
      (run throughReal tree).failure? =
        some (.refused (.copying throughReal.wrapper (throughReal.path "clang")) .notDirectory) ∧
      Complete throughName ∧
      (run throughName tree).failure? =
        some (.refused (.copying throughName.wrapper (throughName.path "y")) .notFound) := by
  decide +kernel

end CompilerWrapper.Install
