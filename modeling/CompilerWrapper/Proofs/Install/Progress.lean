import CompilerWrapper.Proofs.Install

/-!
# When an install goes on

A step of an install is refused for few reasons: the directory is not found, a name is too long, a
directory stands where an entry is to be made anew, a tool is missing, or there is no wrapper to be
copied. Here each step is shown to go through where those are ruled out, and with the steps the
phases (`setAside_completes`, `link_completes`, `place_completes`).

The later phases remove entries, so the directory has to be found without them. It is
*unaffected* if it is found whatever stands at the entries that an install may touch.
-/

namespace CompilerWrapper.Install

open FileTree

variable {plan : Plan} {t u : FileTree} {l : Location} {left : Nat}

/-! ### One entry -/

theorem clear_ok {name : Name} (nameable : Nameable plan.dir name)
    (leads : LeadsTo t plan.dir l left) (not_directory : t.node? (l ++ [name]) ≠ some .directory) :
    ∃ u, ((Step.clear (plan.dir.join name)).run plan t).tree = .ok u ∧
      Cleared t (l ++ [name]) u := by
  have taken : ∃ u, ((Step.clear (plan.dir.join name)).run plan t).tree = .ok u := by
    rw [clear_join nameable leads]
    split
    next => exact ⟨t, rfl⟩
    next directory => exact absurd directory not_directory
    next => exact ⟨_, rfl⟩
  obtain ⟨u, taken⟩ := taken
  exact ⟨u, taken, clear_run nameable leads taken⟩

theorem setAside_ok (leads : LeadsTo t plan.dir l left) {tool : String}
    (files : HasFiles t l tool) (nameable : Nameable plan.dir (Bytes.ofText tool))
    (nameable' : Nameable plan.dir (Bytes.ofText (tool ++ realSuffix)))
    (compiler : (compiler? t l tool).isSome) :
    ∃ u, ((Step.setAside tool).run plan t).tree = .ok u := by
  have real := isPresent_join_iff nameable'.isName leads (files _ (Or.inr rfl))
  have name := isPresent_join_iff nameable.isName leads (files _ (Or.inl rfl))
  rw [tree_setAside]
  by_cases present : t.isPresent (plan.realPath tool) = true
  · exact ⟨t, if_pos present⟩
  have missing : t.node? (realAt l tool) = none := by
    rw [← Option.not_isSome_iff_eq_none]
    exact fun some => present (real.mpr ⟨nameable', some⟩)
  have some : (t.node? (nameAt l tool)).isSome := by
    unfold compiler? at compiler
    rwa [missing, Option.none_or] at compiler
  obtain ⟨n, node⟩ := Option.isSome_iff_exists.mp some
  obtain ⟨mode, contents, rfl⟩ := files _ (Or.inl rfl) n node
  have moved := rename_join nameable nameable' leads node missing
  have present' : t.isPresent (plan.path tool) = true := name.mpr ⟨nameable, some⟩
  rw [if_neg present, if_pos present']
  unfold Plan.path Plan.realPath
  rw [moved]
  exact ⟨_, rfl⟩

/-! ### Phases -/

/-- Steps are taken in groups, each of which goes through and keeps what the next one needs. -/
theorem completes_flatMap {α : Type} {items : List α} {group : α → List Step} {P : FileTree → Prop}
    (goes : ∀ item ∈ items, ∀ t, P t → ∃ u, Completes plan t (group item) u ∧ P u) (start : P t) :
    ∃ u, Completes plan t (items.flatMap group) u ∧ P u := by
  induction items generalizing t with
  | nil => exact ⟨t, completes_nil_iff.mpr rfl, start⟩
  | cons item items ih =>
    obtain ⟨mid, first, kept⟩ := goes item List.mem_cons_self t start
    obtain ⟨u, rest, kept⟩ := ih (fun other h => goes other (List.mem_cons_of_mem _ h)) kept
    rw [List.flatMap_cons]
    exact ⟨u, completes_append_iff.mpr ⟨mid, first, rest⟩, kept⟩

/-- **Tools that are there can be moved aside.** -/
theorem setAside_completes (apart : plan.Apart) (leads : LeadsTo t plan.dir l left)
    (files : ∀ tool ∈ plan.tools, HasFiles t l tool)
    (nameable : ∀ tool ∈ plan.tools, Nameable plan.dir (Bytes.ofText tool) ∧
      Nameable plan.dir (Bytes.ofText (tool ++ realSuffix)))
    (compilers : ∀ tool ∈ plan.tools, (compiler? t l tool).isSome) :
    ∃ u, Completes plan t (plan.tools.map .setAside) u := by
  have goes : ∀ tool ∈ plan.tools, ∀ mid, Aside plan l t mid →
      ∃ u, Completes plan mid [.setAside tool] u ∧ Aside plan l t u := by
    intro tool mem mid aside
    obtain ⟨name, real⟩ := nameable tool mem
    have found := aside.leadsTo files leads
    obtain ⟨u, taken⟩ := setAside_ok found (aside.files tool mem) name real
      (aside.compilers tool mem ▸ compilers tool mem)
    obtain ⟨aside', -⟩ := setAside_run apart found aside.files mem taken
    exact ⟨u, completes_cons_iff.mpr ⟨u, taken, completes_nil_iff.mpr rfl⟩, aside.trans aside'⟩
  obtain ⟨u, completes, -⟩ := completes_flatMap goes (.refl files)
  rw [List.map_eq_flatMap]
  exact ⟨u, completes⟩

/-- An install leaves the place alone. -/
def Plan.Spares (plan : Plan) (l place : Location) : Prop :=
  ∀ name ∈ plan.names, place ≠ nameAt l name ∧ place ≠ realAt l name

/-- The directory is found whatever stands at the entries that an install may touch. -/
def Plan.Unaffected (plan : Plan) (t : FileTree) (l : Location) (left : Nat) : Prop :=
  ∀ u : FileTree, u.here = t.here →
    (∀ place, plan.Spares l place → u.node? place = t.node? place) → LeadsTo u plan.dir l left

theorem Plan.Unaffected.congr (unaffected : plan.Unaffected t l left) (here : u.here = t.here)
    (same : ∀ place, plan.Spares l place → u.node? place = t.node? place) :
    plan.Unaffected u l left := by
  intro v here' same'
  apply unaffected v (here'.trans here)
  intro place spared
  rw [same' place spared, same place spared]

theorem Plan.Unaffected.leads (unaffected : plan.Unaffected t l left) : LeadsTo t plan.dir l left :=
  unaffected t rfl fun _ _ => rfl

/-- The second tree is like the first one but at one place, where it has what was there, or a node
of some kind, or nothing. -/
structure Differs (t : FileTree) (place : Location) (kind : Node → Prop) (u : FileTree) : Prop where
  here : u.here = t.here
  entry : ∀ n, u.node? place = some n → t.node? place = some n ∨ kind n
  frame : ∀ other, other ≠ place → u.node? other = t.node? other

theorem Differs.refl {place : Location} {kind : Node → Prop} : Differs t place kind t :=
  ⟨rfl, fun _ => Or.inl, fun _ _ => rfl⟩

theorem Cleared.differs {place : Location} (cleared : Cleared t place u) (kind : Node → Prop) :
    Differs t place kind u := by
  refine ⟨cleared.here, ?_, ?_⟩
  · intro n node
    rw [cleared.node?, if_pos rfl] at node
    cases node
  · intro other ne
    rw [cleared.node?, if_neg ne]

theorem Replaced.differs {place : Location} {n : Node} (replaced : Replaced t place n u)
    (kind : Node → Prop) (isKind : kind n) : Differs t place kind u := by
  refine ⟨replaced.here, ?_, ?_⟩
  · intro m node
    rw [replaced.node?, if_pos rfl] at node
    exact Or.inr (Option.some.inj node ▸ isKind)
  · intro other ne
    rw [replaced.node?, if_neg ne]

theorem Plan.Unaffected.differs (unaffected : plan.Unaffected t l left) {place : Location}
    {kind : Node → Prop} (touched : ¬ plan.Spares l place) (differs : Differs t place kind u) :
    plan.Unaffected u l left :=
  unaffected.congr differs.here fun other spared =>
    differs.frame other fun same => touched (same ▸ spared)

theorem not_spares_nameAt {name : String} (mem : name ∈ plan.names) :
    ¬ plan.Spares l (nameAt l name) := fun spared => (spared name mem).1 rfl

theorem not_spares_realAt {name : String} (mem : name ∈ plan.names) :
    ¬ plan.Spares l (realAt l name) := fun spared => (spared name mem).2 rfl

theorem link_ok {a : Alias} (mem : a ∈ plan.aliases) (unaffected : plan.Unaffected t l left)
    (target : a.target ∈ plan.tools)
    (fits : checkPath (Bytes.ofText (a.target ++ realSuffix)) = .ok ())
    (nameable : Nameable plan.dir (Bytes.ofText (a.name ++ realSuffix)))
    (not_directory : t.node? (realAt l a.name) ≠ some .directory) :
    ∃ u, Completes plan t [.check a, .clear (plan.realPath a.name), .link a] u ∧
      Replaced t (realAt l a.name) (.link (Bytes.ofText (a.target ++ realSuffix))) u := by
  have checked : ((Step.check a).run plan t).tree = .ok t := by
    rw [tree_check, if_pos target]
  obtain ⟨mid, clear, cleared⟩ := clear_ok nameable unaffected.leads not_directory
  have found := (unaffected.differs (not_spares_realAt (mem_names_of_alias mem))
    (cleared.differs fun _ => False)).leads
  have missing : mid.node? (realAt l a.name) = none := cleared.missing
  have link := (symlink_join_iff nameable.isName).mpr
    ⟨fits, nameable, l, left, found, missing, rfl⟩
  refine ⟨_, ?_, cleared.put (realAt_ne_nil l a.name) _⟩
  refine completes_cons_iff.mpr ⟨t, checked, completes_cons_iff.mpr ⟨mid, clear,
    completes_cons_iff.mpr ⟨_, ?_, completes_nil_iff.mpr rfl⟩⟩⟩
  exact congrArg (Except.mapError _) link

/-- The directory is found, and none is in the way of a link. -/
structure Plan.Linkable (plan : Plan) (t : FileTree) (l : Location) (left : Nat) : Prop where
  unaffected : plan.Unaffected t l left
  not_directory : ∀ a ∈ plan.aliases, t.node? (realAt l a.name) ≠ some .directory

/-- **Aliases can be linked where no directory is in the way.** -/
theorem link_completes (linkable : plan.Linkable t l left)
    (targets : ∀ a ∈ plan.aliases, a.target ∈ plan.tools)
    (fits : ∀ a ∈ plan.aliases, checkPath (Bytes.ofText (a.target ++ realSuffix)) = .ok ())
    (nameable : ∀ a ∈ plan.aliases, Nameable plan.dir (Bytes.ofText (a.name ++ realSuffix))) :
    ∃ u, Completes plan t
      (plan.aliases.flatMap fun a => [.check a, .clear (plan.realPath a.name), .link a]) u := by
  have goes : ∀ a ∈ plan.aliases, ∀ mid, plan.Linkable mid l left →
      ∃ u, Completes plan mid [.check a, .clear (plan.realPath a.name), .link a] u ∧
        plan.Linkable u l left := by
    rintro a mem mid ⟨unaffected, not_directory⟩
    obtain ⟨u, completes, replaced⟩ := link_ok mem unaffected (targets a mem) (fits a mem)
      (nameable a mem) (not_directory a mem)
    refine ⟨u, completes, unaffected.differs (not_spares_realAt (mem_names_of_alias mem))
      (replaced.differs (fun _ => True) trivial), ?_⟩
    intro b mem'
    rw [replaced.node?]
    split
    · simp
    · exact not_directory b mem'
  obtain ⟨u, completes, -⟩ := completes_flatMap goes linkable
  exact ⟨u, completes⟩

theorem place_ok {name : String} (mem : name ∈ plan.names) (unaffected : plan.Unaffected t l left)
    (nameable : Nameable plan.dir (Bytes.ofText name))
    (not_directory : t.node? (nameAt l name) ≠ some .directory) {source : Location} {mode : Nat}
    {contents : Bytes}
    (found : ∀ u, Cleared t (nameAt l name) u → Source plan u source mode contents) :
    ∃ u, Completes plan t [.clear (plan.path name), .place name] u ∧
      Replaced t (nameAt l name) (.file (modeAfterAdding mode contents) contents) u := by
  obtain ⟨mid, clear, cleared⟩ := clear_ok nameable unaffected.leads not_directory
  have leads := (unaffected.differs (not_spares_nameAt mem)
    (cleared.differs fun _ => False)).leads
  have missing : mid.node? (nameAt l name) = none := cleared.missing
  obtain ⟨resolved, node⟩ := found mid cleared
  have copied := copy_join nameable leads missing resolved node
  refine ⟨_, ?_, cleared.put (nameAt_ne_nil l name) _⟩
  refine completes_cons_iff.mpr ⟨mid, clear,
    completes_cons_iff.mpr ⟨_, ?_, completes_nil_iff.mpr rfl⟩⟩
  rw [tree_place]
  exact congrArg (Except.mapError _) copied

/-- The second tree is like the first one but under names, and no directory is in the way of a
copy. -/
structure Plan.Placeable (plan : Plan) (l : Location) (t u : FileTree) : Prop where
  here : u.here = t.here
  frame : ∀ place, (∀ name ∈ plan.names, place ≠ nameAt l name) → u.node? place = t.node? place
  not_directory : ∀ name ∈ plan.names, u.node? (nameAt l name) ≠ some .directory

theorem Plan.Placeable.differs {v : FileTree} (placeable : plan.Placeable l t u) {name : String}
    (mem : name ∈ plan.names) {kind : Node → Prop} (differs : Differs u (nameAt l name) kind v)
    (other : ¬ kind .directory) : plan.Placeable l t v := by
  constructor
  case here => exact differs.here.trans placeable.here
  case frame =>
    intro place others
    rw [differs.frame place (others name mem), placeable.frame place others]
  case not_directory =>
    intro next h directory
    by_cases same : nameAt l next = nameAt l name
    · rw [same] at directory
      rcases differs.entry _ directory with before | isKind
      · exact placeable.not_directory name mem before
      · exact other isKind
    · rw [differs.frame _ same] at directory
      exact placeable.not_directory next h directory

/-- **The wrapper can be placed under all names if it is found whatever stands there.** -/
theorem place_completes (unaffected : plan.Unaffected t l left)
    (nameable : ∀ name ∈ plan.names, Nameable plan.dir (Bytes.ofText name))
    {source : Location} {mode : Nat} {contents : Bytes}
    (found : ∀ u, plan.Placeable l t u → Source plan u source mode contents)
    (placeable : plan.Placeable l t u) :
    ∃ v, Completes plan u
      (plan.names.flatMap fun name => [.clear (plan.path name), .place name]) v ∧
        plan.Placeable l t v := by
  refine completes_flatMap ?_ placeable
  intro name mem mid placeable
  have steady := unaffected.congr placeable.here fun place spared =>
    placeable.frame place fun name h => (spared name h).1
  have finds : ∀ v, Cleared mid (nameAt l name) v → Source plan v source mode contents :=
    fun v cleared => found v (placeable.differs mem (cleared.differs fun _ => False) id)
  obtain ⟨u, completes, replaced⟩ :=
    place_ok mem steady (nameable name mem) (placeable.not_directory name mem) finds
  exact ⟨u, completes,
    placeable.differs mem (replaced.differs (· ≠ .directory) (by simp)) (by simp)⟩

end CompilerWrapper.Install
