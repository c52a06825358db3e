import CompilerWrapper.Proofs.Install.Entries

/-!
# What an install leaves

An install moves tools aside, then links aliases, then places the wrapper. Each phase is described by
what it leaves and what it keeps (`Aside`, `Linked`, `Placed`), and the three together say what stands
where after an install that succeeded (`Installed`).
-/

namespace CompilerWrapper.Install

open FileTree

variable {plan : Plan} {t u v : FileTree} {l : Location} {left : Nat}

/-! ### The phases together -/

/-- The target of the last alias with the given name. -/
def target? (aliases : List Alias) (name : String) : Option String :=
  (aliases.reverse.find? fun a => a.name = name).map (·.target)

theorem target?_cons (a : Alias) (aliases : List Alias) (name : String) :
    target? (a :: aliases) name =
      (target? aliases name).or (if a.name = name then some a.target else none) := by
  unfold target?
  rw [List.reverse_cons, List.find?_append]
  cases aliases.reverse.find? fun a => a.name = name with
  | some b => rfl
  | none =>
    by_cases same : a.name = name
    · simp [same]
    · simp [same]

theorem ne_of_target?_eq_none {aliases : List Alias} {name : String}
    (none : target? aliases name = none) {a : Alias} (h : a ∈ aliases) : a.name ≠ name := by
  unfold target? at none
  rw [Option.map_eq_none_iff, List.find?_eq_none] at none
  simpa using none a (List.mem_reverse.mpr h)

theorem exists_of_target?_eq_some {aliases : List Alias} {name target : String}
    (last : target? aliases name = some target) :
    ∃ a ∈ aliases, a.name = name ∧ a.target = target := by
  unfold target? at last
  obtain ⟨a, found, rfl⟩ := Option.map_eq_some_iff.mp last
  exact ⟨a, List.mem_reverse.mp (List.mem_of_find?_eq_some found),
    by simpa using List.find?_some found, rfl⟩

/-- What linking aliases leaves: the entries of their real compilers are changed and nothing else,
and the last link of a name stays. -/
structure Linked (plan : Plan) (l : Location) (left : Nat) (aliases : List Alias)
    (t u : FileTree) : Prop where
  leads : LeadsTo u plan.dir l left
  here : u.here = t.here
  targets : ∀ a ∈ aliases, a.target ∈ plan.tools
  fits : ∀ a ∈ aliases, checkPath (Bytes.ofText (a.target ++ realSuffix)) = .ok ()
  nameable : ∀ a ∈ aliases, Nameable plan.dir (Bytes.ofText (a.name ++ realSuffix))
  directories : ∀ place, t.node? place = some .directory → u.node? place = some .directory
  frame : ∀ place, (∀ a ∈ aliases, place ≠ realAt l a.name) → u.node? place = t.node? place
  links : ∀ name target, target? aliases name = some target →
    u.node? (realAt l name) = some (.link (Bytes.ofText (target ++ realSuffix)))

theorem link_phase (apart : plan.Apart) {aliases : List Alias}
    (sub : ∀ a ∈ aliases, a ∈ plan.aliases) (leads : LeadsTo t plan.dir l left)
    (done : Completes plan t
      (aliases.flatMap fun a => [.check a, .clear (plan.realPath a.name), .link a]) u) :
    Linked plan l left aliases t u := by
  induction aliases generalizing t with
  | nil =>
    obtain rfl := completes_nil_iff.mp done
    exact ⟨leads, rfl, by simp, by simp, by simp, fun _ h => h, fun _ _ => rfl, by simp [target?]⟩
  | cons a aliases ih =>
    rw [List.flatMap_cons] at done
    obtain ⟨mid, first, rest⟩ := completes_append_iff.mp done
    obtain ⟨target, fits, nameable, leads', replaced⟩ :=
      link_run apart leads (sub a List.mem_cons_self) first
    have linked := ih (fun b h => sub b (List.mem_cons_of_mem _ h)) leads' rest
    constructor
    case leads => exact linked.leads
    case here => exact linked.here.trans replaced.here
    case targets => exact List.forall_mem_cons.mpr ⟨target, linked.targets⟩
    case fits => exact List.forall_mem_cons.mpr ⟨fits, linked.fits⟩
    case nameable => exact List.forall_mem_cons.mpr ⟨nameable, linked.nameable⟩
    case directories => exact fun place h => linked.directories place (replaced.directories h)
    case frame =>
      intro place others
      obtain ⟨ne, others⟩ := List.forall_mem_cons.mp others
      rw [linked.frame place others, replaced.node?, if_neg ne]
    case links =>
      intro name found last
      rw [target?_cons] at last
      rcases Option.or_eq_some_iff.mp last with later | ⟨none, last⟩
      · exact linked.links name found later
      · split at last
        next same =>
          obtain rfl := Option.some.inj last
          rw [linked.frame, replaced.node?, same, if_pos rfl]
          intro b h later
          exact ne_of_target?_eq_none none h (realAt_inj later).symm
        next => cases last

/-- What placing the wrapper under names leaves: their entries are changed and nothing else, and
every name gets what the wrapper's path leads to all the while. -/
structure Placed (plan : Plan) (l : Location) (left : Nat) (names : List String)
    (source : Location) (mode : Nat) (contents : Bytes) (t u : FileTree) : Prop where
  leads : LeadsTo u plan.dir l left
  here : u.here = t.here
  found : Source plan u source mode contents
  ne_source : ∀ name ∈ names, source ≠ nameAt l name
  directories : ∀ place, t.node? place = some .directory → u.node? place = some .directory
  frame : ∀ place, (∀ name ∈ names, place ≠ nameAt l name) → u.node? place = t.node? place
  nameable : ∀ name ∈ names, Nameable plan.dir (Bytes.ofText name)
  wrapped : ∀ name ∈ names,
    u.node? (nameAt l name) = some (.file (modeAfterAdding mode contents) contents)

theorem place_phase {names : List String}
    (isName : ∀ name ∈ names, Path.IsName (Bytes.ofText name)) (leads : LeadsTo t plan.dir l left)
    {source : Location} {mode : Nat} {contents : Bytes}
    (found : Source plan t source mode contents)
    (done : Completes plan t
      (names.flatMap fun name => [.clear (plan.path name), .place name]) u) :
    Placed plan l left names source mode contents t u := by
  induction names generalizing t with
  | nil =>
    obtain rfl := completes_nil_iff.mp done
    exact ⟨leads, rfl, found, by simp, fun _ h => h, fun _ _ => rfl, by simp, by simp⟩
  | cons name names ih =>
    rw [List.flatMap_cons] at done
    obtain ⟨mid, first, rest⟩ := completes_append_iff.mp done
    obtain ⟨nameable, _, _, _, found₁, found', ne, leads', replaced⟩ :=
      place_run (isName name List.mem_cons_self) leads first
    obtain rfl := Except.ok.inj (found₁.resolved.symm.trans found.resolved)
    obtain ⟨rfl, rfl⟩ := Node.file.inj (Option.some.inj (found₁.node.symm.trans found.node))
    have placed := ih (fun other h => isName other (List.mem_cons_of_mem _ h)) leads' found' rest
    constructor
    case leads => exact placed.leads
    case here => exact placed.here.trans replaced.here
    case found => exact placed.found
    case ne_source => exact List.forall_mem_cons.mpr ⟨ne, placed.ne_source⟩
    case directories => exact fun place h => placed.directories place (replaced.directories h)
    case frame =>
      intro place others
      obtain ⟨ne, others⟩ := List.forall_mem_cons.mp others
      rw [placed.frame place others, replaced.node?, if_neg ne]
    case nameable => exact List.forall_mem_cons.mpr ⟨nameable, placed.nameable⟩
    case wrapped =>
      intro other h
      by_cases later : other ∈ names
      · exact placed.wrapped other later
      · obtain rfl := (List.mem_cons.mp h).resolve_right later
        rw [placed.frame, replaced.node?, if_pos rfl]
        intro next h same
        exact later (nameAt_inj same ▸ h)

/-- Where the wrapper is placed under any name at all, it is found before. -/
theorem exists_placed {names : List String} (ne : names ≠ [])
    (isName : ∀ name ∈ names, Path.IsName (Bytes.ofText name)) (leads : LeadsTo t plan.dir l left)
    (done : Completes plan t
      (names.flatMap fun name => [.clear (plan.path name), .place name]) u) :
    ∃ source mode contents, Placed plan l left names source mode contents t u := by
  obtain ⟨name, names, rfl⟩ := List.exists_cons_of_ne_nil ne
  obtain ⟨mid, first, -⟩ := completes_append_iff.mp (List.flatMap_cons ▸ done)
  obtain ⟨-, source, mode, contents, found, -⟩ :=
    place_run (isName name List.mem_cons_self) leads first
  exact ⟨source, mode, contents, place_phase isName leads found done⟩

/-- An install that succeeds goes through three phases: tools are moved aside, aliases are linked,
and the wrapper is placed under every name. -/
theorem run_phases (apart : plan.Apart) (leads : LeadsTo t plan.dir l left)
    (files : ∀ tool ∈ plan.tools, HasFiles t l tool) (done : (run plan t).failure? = none) :
    ∃ u v, Aside plan l t u ∧ (∀ tool ∈ plan.tools, (u.node? (realAt l tool)).isSome ∧
        Nameable plan.dir (Bytes.ofText (tool ++ realSuffix))) ∧
      Linked plan l left plan.aliases u v ∧
      Completes plan v (plan.names.flatMap fun name => [.clear (plan.path name), .place name])
        (run plan t).tree := by
  have completes : Completes plan t plan.steps (run plan t).tree := ⟨done, rfl⟩
  unfold Plan.steps at completes
  obtain ⟨v, before, placing⟩ := completes_append_iff.mp completes
  obtain ⟨u, moving, linking⟩ := completes_append_iff.mp before
  obtain ⟨aside, moved⟩ := setAside_phase apart (fun _ h => h) leads files moving
  exact ⟨u, v, aside, moved,
    link_phase apart (fun _ h => h) (aside.leadsTo files leads) linking, placing⟩

/-- The places of the links to real compilers. -/
def Plan.links (plan : Plan) (l : Location) : List Location :=
  plan.aliases.map fun a => realAt l a.name

theorem node?_without_links (t : FileTree) (plan : Plan) (l place : Location) :
    (t.without (plan.links l)).node? place =
      if place ∈ plan.links l then none else t.node? place := by
  apply node?_without
  intro place h
  obtain ⟨a, -, rfl⟩ := List.mem_map.mp h
  exact realAt_ne_nil l a.name

/-- What a tree `t` is before an install into the directory at `l`: where tools and their real
compilers are, there are files, each tool has a compiler that is not the wrapper, and the wrapper
is found without the links to real compilers. -/
structure Prepared (plan : Plan) (t : FileTree) (l : Location) (mode : Nat) (contents : Bytes) :
    Prop where
  dir : t.resolve (plan.dir.join Path.here) = .ok l
  files : ∀ tool ∈ plan.tools, HasFiles t l tool
  compilers : ∀ tool ∈ plan.tools, compiler? t l tool ≠ some (.file mode contents)
  wrapper : ∃ source, Source plan (t.without (plan.links l)) source mode contents

/-- What an install leaves in the directory at `l`. -/
structure Installed (plan : Plan) (t : FileTree) (l : Location) (mode : Nat) (contents : Bytes)
    (u : FileTree) : Prop where
  here : u.here = t.here
  dir : ∃ left, LeadsTo u plan.dir l left
  /-- The wrapper stands under every name. -/
  wrapped : ∀ name ∈ plan.names, Nameable plan.dir (Bytes.ofText name) ∧
    u.node? (nameAt l name) = some (.file (modeAfterAdding mode contents) contents)
  /-- The compiler of every tool stands beside it. -/
  compilers : ∀ tool ∈ plan.tools, (compiler? t l tool).isSome ∧
    u.node? (realAt l tool) = compiler? t l tool
  targets : ∀ a ∈ plan.aliases, a.target ∈ plan.tools
  nameable : ∀ name ∈ plan.names, Nameable plan.dir (Bytes.ofText (name ++ realSuffix))
  links : ∀ name target, target? plan.aliases name = some target →
    u.node? (realAt l name) = some (.link (Bytes.ofText (target ++ realSuffix)))
  /-- Everything else is as it was. -/
  frame : ∀ place, (∀ name ∈ plan.names, place ≠ nameAt l name ∧ place ≠ realAt l name) →
    u.node? place = t.node? place

theorem real_ne_name (apart : plan.Apart) {name other : String} (mem : name ∈ plan.names)
    (mem' : other ∈ plan.names) : realAt l other ≠ nameAt l name := by
  intro same
  exact apart.not_real name mem other mem' (nameAt_inj same).symm

/-- The three phases come together to what an install leaves. -/
theorem installed_of_phases (distinct : plan.Distinct) {v w : FileTree} (aside : Aside plan l t u)
    (moved : ∀ tool ∈ plan.tools, (u.node? (realAt l tool)).isSome ∧
      Nameable plan.dir (Bytes.ofText (tool ++ realSuffix)))
    (linked : Linked plan l left plan.aliases u v) {source : Location} {mode : Nat}
    {contents : Bytes} (placed : Placed plan l left plan.names source mode contents v w) :
    Installed plan t l mode contents w := by
  have apart := distinct.apart
  constructor
  case here => exact placed.here.trans (linked.here.trans aside.here)
  case dir => exact ⟨left, placed.leads⟩
  case wrapped => exact fun name h => ⟨placed.nameable name h, placed.wrapped name h⟩
  case compilers =>
    intro tool h
    have mem := mem_names_of_tool h
    obtain ⟨n, node⟩ := Option.isSome_iff_exists.mp (moved tool h).1
    have compiler : compiler? u l tool = some n := by
      unfold compiler?
      rw [node]
      rfl
    rw [placed.frame _ fun name mem' => real_ne_name apart mem' mem, linked.frame,
      ← aside.compilers tool h, compiler]
    · exact ⟨rfl, node⟩
    · intro a mem same
      exact distinct.alias_not_tool a mem (realAt_inj same ▸ h)
  case targets => exact linked.targets
  case nameable =>
    intro name h
    rcases List.mem_append.mp h with h | h
    · exact (moved name h).2
    · obtain ⟨a, mem, rfl⟩ := List.mem_map.mp h
      exact linked.nameable a mem
  case links =>
    intro name target last
    obtain ⟨a, mem, rfl, rfl⟩ := exists_of_target?_eq_some last
    rw [placed.frame _ fun name mem' => real_ne_name apart mem' (mem_names_of_alias mem)]
    exact linked.links a.name a.target last
  case frame =>
    intro place other
    rw [placed.frame place fun name h => (other name h).1,
      linked.frame place fun a h => (other a.name (mem_names_of_alias h)).2]
    exact aside.frame place fun tool h => other tool (mem_names_of_tool h)

/-- **An install that succeeds leaves the wrapper under every name, the compiler of every tool
beside it, and beside every alias a link to the compiler of its target.** -/
theorem run_installed (distinct : plan.Distinct) {mode : Nat} {contents : Bytes}
    (prepared : Prepared plan t l mode contents) (done : (run plan t).failure? = none) :
    Installed plan t l mode contents (run plan t).tree := by
  obtain ⟨left, leads⟩ := leadsTo_of_resolve prepared.dir
  obtain ⟨source, found⟩ := prepared.wrapper
  obtain ⟨u, v, aside, moved, linked, placing⟩ :=
    run_phases distinct.apart leads prepared.files done
  have survives : ∀ place n, (t.without (plan.links l)).node? place = some n →
      (∀ tool ∈ plan.tools, compiler? t l tool ≠ some n) → v.node? place = some n := by
    intro place n node other
    rw [node?_without_links] at node
    split at node
    next => cases node
    next outside =>
      rw [linked.frame place]
      · exact aside.kept place n node other
      · rintro a h rfl
        exact outside (List.mem_map.mpr ⟨a, h, rfl⟩)
  have ways : ∀ place n, (t.without (plan.links l)).node? place = some n → n.LeadsOn →
      v.node? place = some n := by
    intro place n node leadsOn
    apply survives place n node
    intro tool h compiler
    obtain ⟨_, _, rfl⟩ := (prepared.files tool h).compiler compiler
    exact leadsOn
  have node := survives source _ found.node prepared.compilers
  have here : v.here = t.here := linked.here.trans aside.here
  have resolved : v.resolve plan.wrapper = .ok source := by
    refine resolve_congr (here.trans (here_without t _).symm) ways found.resolved ?_
    intro n node'
    obtain rfl := Option.some.inj (found.node.symm.trans node')
    exact node
  exact installed_of_phases distinct aside moved linked
    (place_phase distinct.isName linked.leads ⟨resolved, node⟩ placing)

end CompilerWrapper.Install
