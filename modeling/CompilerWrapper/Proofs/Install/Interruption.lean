import CompilerWrapper.Proofs.Install.Progress

/-!
# Installs that are cut off

An install may be cut off between two changes of the file tree, and within a copy, which then leaves
a file with a beginning of the wrapper. Whatever tree that leaves, it can be installed into in place
of the first one (`Resumes`): every step keeps which file is the compiler of a tool, puts no
directory in the way, and spares everything that is not under a name of the plan. Steps are looked
at in groups, since a copy is as harmless as this only where the entry under its name was removed.
-/

namespace CompilerWrapper

/-- What a copy leaves that was cut off: there is a file under the target, which holds a beginning
of what was to be copied and may have any permission bits. -/
def FileTree.Copying (t : FileTree) (source target : Path) (u : FileTree) : Prop :=
  ∃ place mode contents l bits part, t.resolve source = .ok place ∧
    t.node? place = some (.file mode contents) ∧ t.openPlace target = .ok l ∧
    (∀ kind, t.node? l ≠ some (.device kind)) ∧ part <+: contents ∧ u = t.put l (.file bits part)

namespace Install

open FileTree

/-- The tree that is left where the steps are cut off: before one of them, within a copy, or after
the last. -/
inductive Interrupted (plan : Plan) : FileTree → List Step → FileTree → Prop where
  | stopped (t : FileTree) (steps : List Step) : Interrupted plan t steps t
  | copying {t u : FileTree} {name : String} (steps : List Step) :
      t.Copying plan.wrapper (plan.path name) u → Interrupted plan t (.place name :: steps) u
  | taken {t u v : FileTree} {step : Step} {steps : List Step} :
      (step.run plan t).tree = .ok u → Interrupted plan u steps v →
        Interrupted plan t (step :: steps) v

variable {plan : Plan} {t u v : FileTree} {l : Location} {left : Nat}

/-! ### Where a list of steps is cut off -/

theorem eq_of_interrupted_nil (cut : Interrupted plan t [] v) : v = t := by
  cases cut with
  | stopped => rfl

theorem interrupted_append {steps more : List Step} (cut : Interrupted plan t (steps ++ more) v) :
    Interrupted plan t steps v ∨
      ∃ mid, Completes plan t steps mid ∧ Interrupted plan mid more v := by
  induction steps generalizing t with
  | nil => exact Or.inr ⟨t, completes_nil_iff.mpr rfl, cut⟩
  | cons step steps ih =>
    cases cut with
    | stopped => exact Or.inl (.stopped _ _)
    | copying _ part => exact Or.inl (.copying _ part)
    | taken taken cut =>
      rcases ih cut with cut | ⟨mid, completes, cut⟩
      · exact Or.inl (.taken taken cut)
      · exact Or.inr ⟨mid, completes_cons_iff.mpr ⟨_, taken, completes⟩, cut⟩

/-- What is complete was cut off after the last step. -/
theorem interrupted_of_completes {steps : List Step} (completes : Completes plan t steps u) :
    Interrupted plan t steps u := by
  induction steps generalizing t with
  | nil =>
    obtain rfl := completes_nil_iff.mp completes
    exact .stopped _ _
  | cons step steps ih =>
    obtain ⟨mid, taken, rest⟩ := completes_cons_iff.mp completes
    exact .taken taken (ih rest)

/-- What each group of steps keeps, cut off or not, the groups together keep. -/
theorem Interrupted.flatMap {α : Type} {items : List α} {group : α → List Step}
    {P : FileTree → Prop}
    (keeps : ∀ item ∈ items, ∀ t v, P t → Interrupted plan t (group item) v → P v) (start : P t)
    (cut : Interrupted plan t (items.flatMap group) v) : P v := by
  induction items generalizing t with
  | nil =>
    obtain rfl := eq_of_interrupted_nil cut
    exact start
  | cons item items ih =>
    have first := keeps item List.mem_cons_self t
    rcases interrupted_append (List.flatMap_cons ▸ cut) with cut | ⟨mid, completes, cut⟩
    · exact first v start cut
    · exact ih (fun other h => keeps other (List.mem_cons_of_mem _ h))
        (first mid start (interrupted_of_completes completes)) cut

theorem setAside_interrupted (apart : plan.Apart) (leads : LeadsTo t plan.dir l left)
    (files : ∀ tool ∈ plan.tools, HasFiles t l tool) {tool : String} (mem : tool ∈ plan.tools)
    (cut : Interrupted plan t [.setAside tool] v) : Aside plan l t v := by
  cases cut with
  | stopped => exact .refl files
  | taken taken cut =>
    obtain rfl := eq_of_interrupted_nil cut
    exact (setAside_run apart leads files mem taken).1

theorem link_interrupted {a : Alias} (unaffected : plan.Unaffected t l left)
    (nameable : Nameable plan.dir (Bytes.ofText (a.name ++ realSuffix)))
    (cut : Interrupted plan t [.check a, .clear (plan.realPath a.name), .link a] v) :
    Differs t (realAt l a.name) (fun n => ∃ target, n = .link target) v := by
  cases cut with
  | stopped => exact .refl
  | taken check cut =>
    obtain ⟨-, rfl⟩ := check_run check
    cases cut with
    | stopped => exact .refl
    | taken clear cut =>
      have cleared := clear_run nameable unaffected.leads clear
      cases cut with
      | stopped => exact cleared.differs _
      | taken link cut =>
        obtain rfl := eq_of_interrupted_nil cut
        obtain ⟨-, -, place, left', leads, -, rfl⟩ :=
          (symlink_join_iff nameable.isName).mp (ok_of_mapError link)
        obtain ⟨rfl, -⟩ := put_again unaffected.leads cleared leads .directory
        exact (cleared.put (realAt_ne_nil place a.name) _).differs _ ⟨_, rfl⟩

theorem place_interrupted {name : String} (mem : name ∈ plan.names)
    (unaffected : plan.Unaffected t l left) (nameable : Nameable plan.dir (Bytes.ofText name))
    (cut : Interrupted plan t [.clear (plan.path name), .place name] v) :
    Differs t (nameAt l name) (fun n => ∃ mode contents, n = .file mode contents) v := by
  cases cut with
  | stopped => exact .refl
  | taken clear cut =>
    have cleared := clear_run nameable unaffected.leads clear
    cases cut with
    | stopped => exact cleared.differs _
    | copying _ part =>
      have leads := (unaffected.differs (not_spares_nameAt mem)
        (cleared.differs fun _ => False)).leads
      have missing : _ = none := cleared.missing
      obtain ⟨_, _, _, place, bits, part, _, _, opened, _, _, rfl⟩ := part
      obtain rfl := Except.ok.inj (opened.symm.trans (openPlace_join nameable leads missing))
      exact (cleared.put (nameAt_ne_nil l name) _).differs _ ⟨_, _, rfl⟩
    | taken taken cut =>
      obtain rfl := eq_of_interrupted_nil cut
      have completes : Completes plan t [.clear (plan.path name), .place name] v :=
        completes_cons_iff.mpr ⟨_, clear, completes_cons_iff.mpr ⟨_, taken,
          completes_nil_iff.mpr rfl⟩⟩
      obtain ⟨-, _, _, _, _, _, _, _, replaced⟩ :=
        place_run nameable.isName unaffected.leads completes
      exact replaced.differs _ ⟨_, _, rfl⟩

/-! ### What is left can be installed into -/

/-- The second tree can be installed into in place of the first one: it has the same compilers, no
directory is in the way, and everything is as it was that an install spares. -/
structure Resumes (plan : Plan) (l : Location) (t u : FileTree) : Prop where
  here : u.here = t.here
  files : ∀ tool ∈ plan.tools, HasFiles u l tool
  compilers : ∀ tool ∈ plan.tools, compiler? u l tool = compiler? t l tool
  not_directory : ∀ a ∈ plan.aliases, u.node? (nameAt l a.name) ≠ some .directory ∧
    u.node? (realAt l a.name) ≠ some .directory
  frame : ∀ place, plan.Spares l place → u.node? place = t.node? place

/-- The compiler of every tool was moved aside. -/
def Plan.Settled (plan : Plan) (l : Location) (t : FileTree) : Prop :=
  ∀ tool ∈ plan.tools, (t.node? (realAt l tool)).isSome

namespace Resumes

theorem aside (distinct : plan.Distinct) (resumes : Resumes plan l t u)
    (aside : Aside plan l u v) : Resumes plan l t v := by
  have apart := distinct.apart
  constructor
  case here => exact aside.here.trans resumes.here
  case files => exact aside.files
  case compilers =>
    exact fun tool mem => (aside.compilers tool mem).trans (resumes.compilers tool mem)
  case not_directory =>
    intro a mem
    have named := mem_names_of_alias mem
    obtain ⟨name, real⟩ := resumes.not_directory a mem
    have ne : ∀ tool ∈ plan.tools, a.name ≠ tool := by
      rintro tool h rfl
      exact distinct.alias_not_tool a mem h
    rw [aside.frame (nameAt l a.name), aside.frame (realAt l a.name)]
    · exact ⟨name, real⟩
    · intro tool h
      exact ⟨real_ne_name apart (mem_names_of_tool h) named, mt realAt_inj (ne tool h)⟩
    · intro tool h
      exact ⟨mt nameAt_inj (ne tool h), (real_ne_name apart named (mem_names_of_tool h)).symm⟩
  case frame =>
    intro place spared
    rw [aside.frame place fun tool h => spared tool (mem_names_of_tool h),
      resumes.frame place spared]

theorem differs_real (distinct : plan.Distinct) (resumes : Resumes plan l t u)
    (settled : plan.Settled l u) {a : Alias} (mem : a ∈ plan.aliases)
    (differs : Differs u (realAt l a.name) (fun n => ∃ target, n = .link target) v) :
    Resumes plan l t v ∧ plan.Settled l v := by
  have apart := distinct.apart
  have named := mem_names_of_alias mem
  have name : ∀ other ∈ plan.names, v.node? (nameAt l other) = u.node? (nameAt l other) :=
    fun other h => differs.frame _ (real_ne_name apart h named).symm
  have real : ∀ tool ∈ plan.tools, v.node? (realAt l tool) = u.node? (realAt l tool) := by
    intro tool h
    apply differs.frame
    intro same
    exact distinct.alias_not_tool a mem (realAt_inj same ▸ h)
  constructor
  · constructor
    case here => exact differs.here.trans resumes.here
    case files =>
      rintro tool h place (rfl | rfl) n node
      · rw [name tool (mem_names_of_tool h)] at node
        exact resumes.files tool h _ (Or.inl rfl) n node
      · rw [real tool h] at node
        exact resumes.files tool h _ (Or.inr rfl) n node
    case compilers =>
      intro tool h
      rw [← resumes.compilers tool h]
      unfold compiler?
      rw [name tool (mem_names_of_tool h), real tool h]
    case not_directory =>
      intro b h
      obtain ⟨before, before'⟩ := resumes.not_directory b h
      rw [name b.name (mem_names_of_alias h)]
      refine ⟨before, ?_⟩
      intro directory
      by_cases same : realAt l b.name = realAt l a.name
      · rw [same] at directory
        rcases differs.entry _ directory with kept | ⟨_, link⟩
        · exact (resumes.not_directory a mem).2 kept
        · cases link
      · rw [differs.frame _ same] at directory
        exact before' directory
    case frame =>
      intro place spared
      rw [differs.frame place (spared a.name named).2, resumes.frame place spared]
  · intro tool h
    rw [real tool h]
    exact settled tool h

theorem differs_name (apart : plan.Apart) (resumes : Resumes plan l t u)
    (settled : plan.Settled l u) {name : String} (mem : name ∈ plan.names)
    (differs : Differs u (nameAt l name) (fun n => ∃ mode contents, n = .file mode contents) v) :
    Resumes plan l t v ∧ plan.Settled l v := by
  have real : ∀ other ∈ plan.names, v.node? (realAt l other) = u.node? (realAt l other) :=
    fun other h => differs.frame _ (real_ne_name apart mem h)
  constructor
  · constructor
    case here => exact differs.here.trans resumes.here
    case files =>
      rintro tool h place (rfl | rfl) n node
      · by_cases same : nameAt l tool = nameAt l name
        · rw [same] at node
          rcases differs.entry n node with before | isFile
          · exact resumes.files tool h _ (Or.inl rfl) n (same ▸ before)
          · exact isFile
        · rw [differs.frame _ same] at node
          exact resumes.files tool h _ (Or.inl rfl) n node
      · rw [real tool (mem_names_of_tool h)] at node
        exact resumes.files tool h _ (Or.inr rfl) n node
    case compilers =>
      intro tool h
      rw [← resumes.compilers tool h]
      unfold compiler?
      rw [real tool (mem_names_of_tool h), Option.or_of_isSome (settled tool h),
        Option.or_of_isSome (settled tool h)]
    case not_directory =>
      intro b h
      obtain ⟨before, before'⟩ := resumes.not_directory b h
      rw [real b.name (mem_names_of_alias h)]
      refine ⟨?_, before'⟩
      intro directory
      by_cases same : nameAt l b.name = nameAt l name
      · rw [same] at directory
        rcases differs.entry _ directory with kept | ⟨_, _, file⟩
        · exact before (same ▸ kept)
        · cases file
      · rw [differs.frame _ same] at directory
        exact before directory
    case frame =>
      intro place spared
      rw [differs.frame place (spared name mem).1, resumes.frame place spared]
  · intro tool h
    rw [real tool (mem_names_of_tool h)]
    exact settled tool h

end Resumes

end Install

end CompilerWrapper
