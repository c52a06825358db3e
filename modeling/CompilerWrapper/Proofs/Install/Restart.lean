import CompilerWrapper.Proofs.Install.Interruption

/-!
# An install that was cut off is run again

An install that would have succeeded can be run again wherever it was cut off, and leaves what it
would have left in one go (`run_restarts`).

The tree that the whole install leaves tells why (`Whole`). The entries that were touched are files
there, and links to files, and no walk to a directory goes through one of those: so the directory is
found whatever stands at those entries. The names fit, and the wrapper is found without them.
-/

namespace CompilerWrapper.Install

open FileTree

section Whole

variable {plan : Plan} {t u v w : FileTree} {l : Location} {left : Nat}

/-! ### What a whole install tells -/

/-- An install of `t` that is complete and left `w`. The wrapper that was copied is still found. -/
structure Whole (plan : Plan) (t : FileTree) (l source : Location) (mode : Nat) (contents : Bytes)
    (w : FileTree) : Prop where
  installed : Installed plan t l mode contents w
  files : ∀ tool ∈ plan.tools, HasFiles t l tool
  fits : ∀ a ∈ plan.aliases, checkPath (Bytes.ofText (a.target ++ realSuffix)) = .ok ()
  found : Source plan w source mode contents
  ne_source : ∀ name ∈ plan.names, source ≠ nameAt l name
  directories : ∀ place, t.node? place = some .directory → w.node? place = some .directory

theorem exists_whole (distinct : plan.Distinct) (names : plan.names ≠ [])
    (dir : t.resolve (plan.dir.join Path.here) = .ok l)
    (files : ∀ tool ∈ plan.tools, HasFiles t l tool) (done : (run plan t).failure? = none) :
    ∃ source mode contents, Whole plan t l source mode contents (run plan t).tree := by
  obtain ⟨left, leads⟩ := leadsTo_of_resolve dir
  obtain ⟨u, v, aside, moved, linked, placing⟩ := run_phases distinct.apart leads files done
  obtain ⟨source, mode, contents, placed⟩ :=
    exists_placed names distinct.isName linked.leads placing
  refine ⟨source, mode, contents, ?_⟩
  constructor
  case installed => exact installed_of_phases distinct aside moved linked placed
  case files => exact files
  case fits => exact linked.fits
  case found => exact placed.found
  case ne_source => exact placed.ne_source
  case directories =>
    intro place directory
    apply placed.directories
    apply linked.directories
    exact aside.ways files place _ directory trivial

namespace Whole

variable {source : Location} {mode : Nat} {contents : Bytes}

theorem compiler (whole : Whole plan t l source mode contents w) {tool : String}
    (mem : tool ∈ plan.tools) :
    ∃ mode contents, w.node? (realAt l tool) = some (.file mode contents) := by
  obtain ⟨some, beside⟩ := whole.installed.compilers tool mem
  obtain ⟨n, compiler⟩ := Option.isSome_iff_exists.mp some
  obtain ⟨mode, contents, rfl⟩ := (whole.files tool mem).compiler compiler
  exact ⟨mode, contents, beside.trans compiler⟩

theorem link (whole : Whole plan t l source mode contents w) {a : Alias}
    (mem : a ∈ plan.aliases) :
    ∃ target ∈ plan.tools, target? plan.aliases a.name = some target ∧
      w.node? (realAt l a.name) = some (.link (Bytes.ofText (target ++ realSuffix))) := by
  cases last : target? plan.aliases a.name with
  | none => exact absurd rfl (ne_of_target?_eq_none last mem)
  | some target =>
    obtain ⟨b, mem', -, rfl⟩ := exists_of_target?_eq_some last
    exact ⟨b.target, whole.installed.targets b mem', rfl, whole.installed.links _ _ last⟩

/-- **After a whole install the directory is found whatever stands at the entries that it
touched.** -/
theorem unaffected (distinct : plan.Distinct) (whole : Whole plan t l source mode contents w) :
    ∃ left, plan.Unaffected w l left := by
  obtain ⟨left, leads⟩ := whole.installed.dir
  refine ⟨left, ?_⟩
  intro u here same
  unfold LeadsTo
  rw [here]
  refine follow_of_blind ?_ leads
  intro place n node leadsOn
  by_cases spared : plan.Spares l place
  · exact Or.inr ((same place spared).trans node)
  -- What an install touched is a file, or the link of an alias.
  obtain ⟨name, mem, touched⟩ :
      ∃ name ∈ plan.names, place = nameAt l name ∨ place = realAt l name := by
    unfold Plan.Spares at spared
    push Not at spared
    obtain ⟨name, mem, touched⟩ := spared
    exact ⟨name, mem, or_iff_not_imp_left.mpr touched⟩
  rcases touched with rfl | rfl
  · obtain rfl := Option.some.inj (node.symm.trans (whole.installed.wrapped name mem).2)
    exact absurd leadsOn id
  · rcases List.mem_append.mp mem with tool | aliased
    · obtain ⟨mode, contents, file⟩ := whole.compiler tool
      obtain rfl := Option.some.inj (node.symm.trans file)
      exact absurd leadsOn id
    · obtain ⟨a, isAlias, rfl⟩ := List.mem_map.mp aliased
      obtain ⟨target, tool, -, link⟩ := whole.link isAlias
      obtain ⟨mode, contents, file⟩ := whole.compiler tool
      exact Or.inl ⟨l, _, _, _, rfl, link,
        (isName_real (distinct.isName target (mem_names_of_tool tool))).toIsProper, file, id⟩

theorem resumes (whole : Whole plan t l source mode contents w) : Resumes plan l t t := by
  refine ⟨rfl, whole.files, fun _ _ => rfl, ?_, fun _ _ => rfl⟩
  intro a mem
  constructor
  · intro directory
    have after := whole.directories _ directory
    rw [(whole.installed.wrapped a.name (mem_names_of_alias mem)).2] at after
    cases after
  · intro directory
    have after := whole.directories _ directory
    obtain ⟨_, -, -, link⟩ := whole.link mem
    rw [link] at after
    cases after

/-- The directory is found in every tree that can be installed into in place of the first one. -/
theorem unaffected_of_resumes (whole : Whole plan t l source mode contents w)
    (unaffected : plan.Unaffected w l left) (resumes : Resumes plan l t u) :
    plan.Unaffected u l left := by
  apply unaffected.congr (resumes.here.trans whole.installed.here.symm)
  intro place spared
  rw [resumes.frame place spared, whole.installed.frame place spared]

/-- **Wherever an install is cut off that would have succeeded, the tree can be installed into.** -/
theorem resumes_of_interrupted (distinct : plan.Distinct)
    (whole : Whole plan t l source mode contents w) (cut : Interrupted plan t plan.steps v) :
    Resumes plan l t v := by
  have apart := distinct.apart
  obtain ⟨left, steady⟩ := whole.unaffected distinct
  have leads := fun {u} (resumes : Resumes plan l t u) =>
    whole.unaffected_of_resumes steady resumes
  have aside : ∀ tool ∈ plan.tools, ∀ u v, Resumes plan l t u →
      Interrupted plan u [.setAside tool] v → Resumes plan l t v := by
    intro tool mem u v resumes cut
    exact resumes.aside distinct
      (setAside_interrupted apart (leads resumes).leads resumes.files mem cut)
  have linking : ∀ a ∈ plan.aliases, ∀ u v, Resumes plan l t u ∧ plan.Settled l u →
      Interrupted plan u [.check a, .clear (plan.realPath a.name), .link a] v →
        Resumes plan l t v ∧ plan.Settled l v := by
    rintro a mem u v ⟨resumes, settled⟩ cut
    exact resumes.differs_real distinct settled mem (link_interrupted (leads resumes)
      (whole.installed.nameable a.name (mem_names_of_alias mem)) cut)
  have placing : ∀ name ∈ plan.names, ∀ u v, Resumes plan l t u ∧ plan.Settled l u →
      Interrupted plan u [.clear (plan.path name), .place name] v →
        Resumes plan l t v ∧ plan.Settled l v := by
    rintro name mem u v ⟨resumes, settled⟩ cut
    exact resumes.differs_name apart settled mem (place_interrupted mem (leads resumes)
      (whole.installed.wrapped name mem).1 cut)
  have start := whole.resumes
  have settled : ∀ u, Completes plan t (plan.tools.map .setAside) u →
      Resumes plan l t u ∧ plan.Settled l u := by
    intro u completes
    obtain ⟨aside, moved⟩ := setAside_phase apart (fun _ h => h) (leads start).leads whole.files
      completes
    exact ⟨start.aside distinct aside, fun tool mem => (moved tool mem).1⟩
  unfold Plan.steps at cut
  rcases interrupted_append cut with cut | ⟨mid, completes, cut⟩
  · rcases interrupted_append cut with cut | ⟨mid, completes, cut⟩
    · rw [List.map_eq_flatMap] at cut
      exact Interrupted.flatMap aside start cut
    · exact (Interrupted.flatMap linking (settled mid completes) cut).1
  · obtain ⟨u, moving, linked⟩ := completes_append_iff.mp completes
    have ready := Interrupted.flatMap linking (settled u moving) (interrupted_of_completes linked)
    exact (Interrupted.flatMap placing ready cut).1

/-! ### Installing again -/

/-- The wrapper is found whatever stands under the names. -/
theorem found_of_placeable (whole : Whole plan t l source mode contents w)
    (placeable : plan.Placeable l w u) : Source plan u source mode contents := by
  have other : ∀ place n, w.node? place = some n → n.LeadsOn →
      ∀ name ∈ plan.names, place ≠ nameAt l name := by
    rintro _ n node leadsOn name mem rfl
    obtain rfl := Option.some.inj (node.symm.trans (whole.installed.wrapped name mem).2)
    exact leadsOn
  have node := (placeable.frame source whole.ne_source).trans whole.found.node
  refine ⟨resolve_congr placeable.here ?_ whole.found.resolved ?_, node⟩
  · intro place n before leadsOn
    rw [placeable.frame place (other place n before leadsOn), before]
  · intro n before
    rw [placeable.frame source whole.ne_source, before]

/-- Once tools are moved aside and aliases linked, all is as in the end but for what stands under
the names. -/
theorem placeable_of_linked (distinct : plan.Distinct)
    (whole : Whole plan t l source mode contents w) (resumes : Resumes plan l t u)
    (settled : plan.Settled l u) (linked : Linked plan l left plan.aliases u v) :
    plan.Placeable l w v := by
  have apart := distinct.apart
  constructor
  case here => exact linked.here.trans (resumes.here.trans whole.installed.here.symm)
  case frame =>
    intro place others
    by_cases real : ∃ name ∈ plan.names, place = realAt l name
    · obtain ⟨name, mem, rfl⟩ := real
      rcases List.mem_append.mp mem with tool | aliased
      · rw [(whole.installed.compilers name tool).2, ← resumes.compilers name tool, linked.frame]
        · exact (Option.or_of_isSome (settled name tool)).symm
        · intro a h same
          exact distinct.alias_not_tool a h (realAt_inj same ▸ tool)
      · obtain ⟨a, isAlias, rfl⟩ := List.mem_map.mp aliased
        obtain ⟨target, -, last, link⟩ := whole.link isAlias
        rw [link, linked.links a.name target last]
    · have spared : plan.Spares l place :=
        fun name mem => ⟨others name mem, fun same => real ⟨name, mem, same⟩⟩
      rw [linked.frame place fun a mem => (spared a.name (mem_names_of_alias mem)).2,
        resumes.frame place spared, whole.installed.frame place spared]
  case not_directory =>
    intro name mem
    rw [linked.frame _ fun a h => (real_ne_name apart mem (mem_names_of_alias h)).symm]
    rcases List.mem_append.mp mem with tool | aliased
    · intro directory
      obtain ⟨_, _, file⟩ := resumes.files name tool _ (Or.inl rfl) _ directory
      cases file
    · obtain ⟨a, isAlias, rfl⟩ := List.mem_map.mp aliased
      exact (resumes.not_directory a isAlias).1

/-- **A tree that can be installed into in place of the first one ends like it.** -/
theorem completes_of_resumes (distinct : plan.Distinct)
    (whole : Whole plan t l source mode contents w) (resumes : Resumes plan l t v) :
    ∃ x, Completes plan v plan.steps x ∧ x.here = w.here ∧
      ∀ place, x.node? place = w.node? place := by
  have apart := distinct.apart
  have installed := whole.installed
  obtain ⟨left, steady⟩ := whole.unaffected distinct
  have unaffected := whole.unaffected_of_resumes steady resumes
  have nameable : ∀ tool ∈ plan.tools, Nameable plan.dir (Bytes.ofText tool) ∧
      Nameable plan.dir (Bytes.ofText (tool ++ realSuffix)) := by
    intro tool mem
    have named := mem_names_of_tool mem
    exact ⟨(installed.wrapped tool named).1, installed.nameable tool named⟩
  have compilers : ∀ tool ∈ plan.tools, (compiler? v l tool).isSome := by
    intro tool mem
    rw [resumes.compilers tool mem]
    exact (installed.compilers tool mem).1
  -- The tools are moved aside, so far as they are not yet.
  obtain ⟨u, moving⟩ :=
    setAside_completes apart unaffected.leads resumes.files nameable compilers
  obtain ⟨aside, moved⟩ :=
    setAside_phase apart (fun _ h => h) unaffected.leads resumes.files moving
  have resumes := resumes.aside distinct aside
  have unaffected := whole.unaffected_of_resumes steady resumes
  -- The aliases are linked again.
  obtain ⟨x, linking⟩ := link_completes
    ⟨unaffected, fun a mem => (resumes.not_directory a mem).2⟩ installed.targets whole.fits
    fun a mem => installed.nameable a.name (mem_names_of_alias mem)
  have linked := link_phase apart (fun _ h => h) unaffected.leads linking
  have placeable := whole.placeable_of_linked distinct resumes
    (fun tool mem => (moved tool mem).1) linked
  -- The wrapper is placed again.
  obtain ⟨y, placing, after⟩ := place_completes steady
    (fun name mem => (installed.wrapped name mem).1) (fun _ => whole.found_of_placeable) placeable
  have placed := place_phase distinct.isName linked.leads (whole.found_of_placeable placeable)
    placing
  refine ⟨y, ?_, after.here, ?_⟩
  · exact completes_append_iff.mpr ⟨x, completes_append_iff.mpr ⟨u, moving, linking⟩, placing⟩
  · intro place
    by_cases named : ∃ name ∈ plan.names, place = nameAt l name
    · obtain ⟨name, mem, rfl⟩ := named
      rw [placed.wrapped name mem, (installed.wrapped name mem).2]
    · exact after.frame place fun name mem same => named ⟨name, mem, same⟩

end Whole

/-- An install that has anything to do succeeds only where its directory is. -/
theorem resolve_dir_of_done (isName : ∀ name ∈ plan.names, Path.IsName (Bytes.ofText name))
    (names : plan.names ≠ []) (done : (run plan t).failure? = none) :
    ∃ l, t.resolve (plan.dir.join Path.here) = .ok l := by
  have completes : Completes plan t plan.steps (run plan t).tree := ⟨done, rfl⟩
  unfold Plan.steps at completes
  obtain ⟨_, before, -⟩ := completes_append_iff.mp completes
  obtain ⟨_, moving, linking⟩ := completes_append_iff.mp before
  cases tools : plan.tools with
  | nil =>
    cases aliases : plan.aliases with
    | nil =>
      unfold Plan.names at names
      rw [tools, aliases] at names
      exact absurd rfl names
    | cons a rest =>
      rw [aliases] at linking
      obtain ⟨_, check, -⟩ := completes_cons_iff.mp linking
      have target := (check_run check).1
      rw [tools] at target
      cases target
  | cons tool rest =>
    have isName := isName tool (mem_names_of_tool (tools ▸ List.mem_cons_self))
    rw [tools] at moving
    obtain ⟨_, taken, -⟩ := completes_cons_iff.mp moving
    rw [tree_setAside] at taken
    split at taken
    next present =>
      obtain ⟨_, resolved⟩ := exists_of_isPresent present
      exact resolve_dir_of_join (isName_real isName) resolved
    next =>
      split at taken
      next present =>
        obtain ⟨_, resolved⟩ := exists_of_isPresent present
        exact resolve_dir_of_join isName resolved
      next => cases taken

/-- **An install can be run again wherever it was cut off.** If it would have succeeded in one go,
it succeeds from the tree that was left, and ends with the same working directory and the same at
every place. -/
theorem run_restarts (distinct : plan.Distinct)
    (files : ∀ l, t.resolve (plan.dir.join Path.here) = .ok l →
      ∀ tool ∈ plan.tools, HasFiles t l tool)
    (done : (run plan t).failure? = none) (cut : Interrupted plan t plan.steps v) :
    (run plan v).failure? = none ∧ (run plan v).tree.here = (run plan t).tree.here ∧
      ∀ place, (run plan v).tree.node? place = (run plan t).tree.node? place := by
  by_cases names : plan.names = []
  · obtain ⟨tools, aliases⟩ := List.append_eq_nil_iff.mp names
    have steps : plan.steps = [] := by
      unfold Plan.steps
      rw [names, tools, List.map_eq_nil_iff.mp aliases]
      rfl
    rw [steps] at cut
    obtain rfl := eq_of_interrupted_nil cut
    exact ⟨done, rfl, fun _ => rfl⟩
  · obtain ⟨l, dir⟩ := resolve_dir_of_done distinct.isName names done
    obtain ⟨source, mode, contents, whole⟩ :=
      exists_whole distinct names dir (files l dir) done
    obtain ⟨x, ⟨done', rfl⟩, here, same⟩ :=
      whole.completes_of_resumes distinct (whole.resumes_of_interrupted distinct cut)
    exact ⟨done', here, same⟩

end Whole

/-! ### A copy that was cut off -/

namespace Torn

/-- The directory of a compiler. -/
def bin : Location := [Bytes.ofText "bin"]

/-- The compiler, and a wrapper that is too long to be written at once. -/
def tree : FileTree where
  nodes := [(bin, .directory), (nameAt bin "clang", .file 0o755 [1]),
    ([Bytes.ofText "ccwrap"], .file 0o755 [0, 0])]
  here := []

/-- Installs the wrapper under the name of the compiler and under an alias. -/
def plan : Plan where
  dir := Bytes.ofText "/bin"
  wrapper := Bytes.ofText "/ccwrap"
  tools := ["clang"]
  aliases := [⟨"clang++", "clang"⟩]

/-- What is left if the first copy is cut off. -/
def torn : FileTree :=
  (runSteps plan tree (plan.steps.take 5)).tree.put (nameAt bin "clang") (.file 0o600 [0])

end Torn

open Torn

theorem run_restarts_torn :
    Interrupted plan tree plan.steps torn ∧
      torn.node? (nameAt bin "clang") = some (.file 0o600 [0]) ∧
      (run plan torn).failure? = none ∧
      (run plan torn).tree.node? (nameAt bin "clang") = some (.file 0o755 [0, 0]) := by
  have names : ∀ name ∈ plan.names, name = "clang" ∨ name = "clang++" := by
    simp [plan, Plan.names]
  have distinct : plan.Distinct := by
    constructor
    case isName =>
      intro name h
      rcases names name h with rfl | rfl <;> decide
    case alias_not_tool => decide
    case not_real =>
      intro name h other h' same
      rcases names name h with rfl | rfl <;> rcases names other h' with rfl | rfl <;>
        exact absurd same (by decide)
  have files : ∀ l, tree.resolve (plan.dir.join Path.here) = .ok l →
      ∀ tool ∈ plan.tools, HasFiles tree l tool := by
    intro l dir tool h
    obtain rfl : bin = l := Except.ok.inj dir
    obtain rfl := List.mem_singleton.mp h
    rintro place (rfl | rfl) n node
    · exact ⟨_, _, (Option.some.inj node).symm⟩
    · cases node
  have done : (run plan tree).failure? = none := by decide +kernel
  have part : (runSteps plan tree (plan.steps.take 5)).tree.Copying plan.wrapper
      (plan.path "clang") torn :=
    ⟨_, _, _, _, _, [0], rfl, rfl, rfl, by intro kind; exact nofun, ⟨[0], rfl⟩, rfl⟩
  have cut : Interrupted plan tree plan.steps torn :=
    .taken rfl (.taken rfl (.taken rfl (.taken rfl (.taken rfl (.copying _ part)))))
  obtain ⟨done', -, same⟩ := run_restarts distinct files done cut
  exact ⟨cut, rfl, done', (same _).trans rfl⟩

end CompilerWrapper.Install
