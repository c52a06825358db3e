import CompilerWrapper.Proofs.Install

/-!
# Installs that are rejected

An install checks what it needs on the way: that each tool is there when it is to be moved aside, and
that the target of each alias is among the tools when the alias is to be linked. `run_rejected` says
which installs are rejected by these checks and what they leave (`Stopped`): the tools before the
missing one were moved aside, or all tools were and the aliases before the bad one were linked. No
wrapper was placed yet, and nothing is taken back. So a rejected install leaves the tree as it was
only where all that had been done before.
-/

namespace CompilerWrapper

/-- The failure is that of a check of an install. -/
def Failure.Rejects : Failure → Prop
  | .missingTool _ _ | .unwrappedTarget _ _ => True
  | _ => False

theorem error_of_mapError {ε ε' α : Type} {x : Except ε α} {f : ε → ε'} {e : ε'}
    (h : x.mapError f = .error e) : ∃ e', e = f e' := by
  cases x with
  | error e' => exact ⟨e', (Except.error.inj h).symm⟩
  | ok a => cases h

namespace Install

open FileTree

variable {plan : Plan} {t u : FileTree} {l : Location} {left : Nat} {failure : Failure}
  {tool : String}

/-! ### Where steps fail -/

/-- The steps fail and leave the tree `u`. -/
def Fails (plan : Plan) (t : FileTree) (steps : List Step) (failure : Failure) (u : FileTree) :
    Prop :=
  (runSteps plan t steps).failure? = some failure ∧ (runSteps plan t steps).tree = u

theorem not_fails_nil : ¬ Fails plan t [] failure u := by
  rintro ⟨none, -⟩
  cases none

theorem fails_cons_iff {step : Step} {steps : List Step} :
    Fails plan t (step :: steps) failure u ↔
      ((step.run plan t).tree = .error failure ∧ t = u) ∨
        ∃ mid, (step.run plan t).tree = .ok mid ∧ Fails plan mid steps failure u := by
  unfold Fails
  rw [runSteps]
  obtain ⟨told, tree⟩ := step.run plan t
  cases tree with
  | error failure' => simp
  | ok mid => simp

theorem fails_append_iff {steps more : List Step} :
    Fails plan t (steps ++ more) failure u ↔ Fails plan t steps failure u ∨
      ∃ mid, Completes plan t steps mid ∧ Fails plan mid more failure u := by
  induction steps generalizing t with
  | nil => simp [completes_nil_iff, not_fails_nil]
  | cons step steps ih =>
    simp only [List.cons_append, fails_cons_iff, completes_cons_iff, ih]
    constructor
    · rintro (first | ⟨mid, taken, later | ⟨last, done, fails⟩⟩)
      · exact Or.inl (Or.inl first)
      · exact Or.inl (Or.inr ⟨mid, taken, later⟩)
      · exact Or.inr ⟨last, ⟨mid, taken, done⟩, fails⟩
    · rintro ((first | ⟨mid, taken, later⟩) | ⟨last, ⟨mid, taken, done⟩, fails⟩)
      · exact Or.inl first
      · exact Or.inr ⟨mid, taken, Or.inl later⟩
      · exact Or.inr ⟨mid, taken, Or.inr ⟨last, done, fails⟩⟩

/-- Groups of steps fail in one of them, once those before it were taken. -/
theorem fails_flatMap_iff {α : Type} {items : List α} {group : α → List Step} :
    Fails plan t (items.flatMap group) failure u ↔ ∃ before item after mid,
      items = before ++ item :: after ∧ Completes plan t (before.flatMap group) mid ∧
        Fails plan mid (group item) failure u := by
  induction items generalizing t with
  | nil => simp [not_fails_nil]
  | cons item items ih =>
    rw [List.flatMap_cons, fails_append_iff]
    constructor
    · rintro (first | ⟨mid, done, later⟩)
      · exact ⟨[], item, items, t, rfl, completes_nil_iff.mpr rfl, first⟩
      · obtain ⟨before, other, after, last, rfl, done', fails⟩ := ih.mp later
        exact ⟨item :: before, other, after, last, rfl,
          completes_append_iff.mpr ⟨mid, done, done'⟩, fails⟩
    · rintro ⟨before, other, after, last, same, done, fails⟩
      cases before with
      | nil =>
        obtain ⟨rfl, rfl⟩ := List.cons.inj same
        obtain rfl := completes_nil_iff.mp done
        exact Or.inl fails
      | cons first before =>
        obtain ⟨rfl, rfl⟩ := List.cons.inj same
        obtain ⟨mid, done, done'⟩ := completes_append_iff.mp done
        exact Or.inr ⟨mid, done, ih.mpr ⟨before, other, after, last, rfl, done', fails⟩⟩

/-! ### Which steps reject -/

theorem fails_setAside_iff (rejects : failure.Rejects) :
    Fails plan t [.setAside tool] failure u ↔
      t.isPresent (plan.realPath tool) = false ∧ t.isPresent (plan.path tool) = false ∧
        failure = .missingTool (plan.path tool) (plan.realPath tool) ∧ t = u := by
  simp only [fails_cons_iff, not_fails_nil, and_false, exists_false, or_false, tree_setAside]
  cases t.isPresent (plan.realPath tool) with
  | true => simp
  | false =>
    cases t.isPresent (plan.path tool) with
    | true =>
      simp only [Bool.false_eq_true, if_false, if_true]
      refine iff_of_false ?_ (by simp)
      rintro ⟨refused, -⟩
      obtain ⟨fault, rfl⟩ := error_of_mapError refused
      exact rejects
    | false => simp [eq_comm]

/-- The steps that link an alias. -/
def Plan.linkSteps (plan : Plan) (a : Alias) : List Step :=
  [.check a, .clear (plan.realPath a.name), .link a]

/-- Nothing is rejected when an entry is removed. -/
theorem not_rejects_of_clear {p : Path} (failed : ((Step.clear p).run plan t).tree = .error failure) :
    ¬ failure.Rejects := by
  rw [tree_clear] at failed
  split at failed
  · obtain ⟨fault, rfl⟩ := error_of_mapError failed
    exact id
  · cases failed

theorem fails_linkSteps_iff (rejects : failure.Rejects) {a : Alias} :
    Fails plan t (plan.linkSteps a) failure u ↔
      a.target ∉ plan.tools ∧ failure = .unwrappedTarget a.name a.target ∧ t = u := by
  unfold Plan.linkSteps
  rw [fails_cons_iff, tree_check]
  by_cases target : a.target ∈ plan.tools
  · refine iff_of_false ?_ (by simp [target])
    rw [if_pos target]
    rintro (⟨none, -⟩ | ⟨mid, taken, fails⟩)
    · cases none
    rcases fails_cons_iff.mp fails with ⟨failed, -⟩ | ⟨mid, taken, fails⟩
    · exact not_rejects_of_clear failed rejects
    rcases fails_cons_iff.mp fails with ⟨failed, -⟩ | ⟨mid, taken, fails⟩
    · obtain ⟨fault, rfl⟩ := error_of_mapError failed
      exact rejects
    · exact not_fails_nil fails
  · simp [target, eq_comm]

/-- Nothing is rejected once tools are moved aside and aliases are linked. -/
theorem not_fails_placing (rejects : failure.Rejects) {name : String} :
    ¬ Fails plan t [.clear (plan.path name), .place name] failure u := by
  intro fails
  rcases fails_cons_iff.mp fails with ⟨failed, -⟩ | ⟨mid, taken, fails⟩
  · exact not_rejects_of_clear failed rejects
  rcases fails_cons_iff.mp fails with ⟨failed, -⟩ | ⟨mid, taken, fails⟩
  · rw [tree_place] at failed
    obtain ⟨fault, rfl⟩ := error_of_mapError failed
    exact rejects
  · exact not_fails_nil fails

/-- An install is rejected after some tools were moved aside and some aliases were linked. -/
inductive Rejected (plan : Plan) (t u : FileTree) :
    Failure → (moved : List String) → (linked : List Alias) → Prop where
  /-- The next tool is not there, and its real compiler is not. -/
  | missingTool {moved after : List String} {tool : String} :
      plan.tools = moved ++ tool :: after → Completes plan t (moved.map .setAside) u →
      u.isPresent (plan.realPath tool) = false → u.isPresent (plan.path tool) = false →
      Rejected plan t u (.missingTool (plan.path tool) (plan.realPath tool)) moved []
  /-- The next alias points at a name that is not among the tools. -/
  | unwrappedTarget {linked after : List Alias} {a : Alias} :
      plan.aliases = linked ++ a :: after →
      Completes plan t (plan.tools.map .setAside ++ linked.flatMap plan.linkSteps) u →
      a.target ∉ plan.tools →
      Rejected plan t u (.unwrappedTarget a.name a.target) plan.tools linked

/-- **An install is rejected at the first tool that is missing, or else at the first alias that
points elsewhere.** -/
theorem rejected_iff (rejects : failure.Rejects) :
    Fails plan t plan.steps failure u ↔ ∃ moved linked, Rejected plan t u failure moved linked := by
  have moving : ∀ tools : List String, tools.map Step.setAside = tools.flatMap fun a => [.setAside a] :=
    fun tools => List.map_eq_flatMap
  unfold Plan.steps
  constructor
  · intro fails
    rcases fails_append_iff.mp fails with fails | ⟨mid, -, fails⟩
    · rcases fails_append_iff.mp fails with fails | ⟨mid, moved, fails⟩
      · rw [moving] at fails
        obtain ⟨before, tool, after, mid, split, done, fails⟩ := fails_flatMap_iff.mp fails
        rw [← moving] at done
        obtain ⟨real, name, rfl, rfl⟩ := (fails_setAside_iff rejects).mp fails
        exact ⟨before, [], .missingTool split done real name⟩
      · obtain ⟨before, a, after, last, split, done, fails⟩ := fails_flatMap_iff.mp fails
        obtain ⟨target, rfl, rfl⟩ := (fails_linkSteps_iff rejects).mp fails
        exact ⟨plan.tools, before, .unwrappedTarget split
          (completes_append_iff.mpr ⟨mid, moved, done⟩) target⟩
    · obtain ⟨_, name, _, _, -, -, fails⟩ := fails_flatMap_iff.mp fails
      exact absurd fails (not_fails_placing rejects)
  · rintro ⟨moved, linked, rejected⟩
    refine fails_append_iff.mpr (Or.inl (fails_append_iff.mpr ?_))
    cases rejected with
    | missingTool split done real name =>
      refine Or.inl ?_
      rw [moving] at done ⊢
      exact fails_flatMap_iff.mpr ⟨_, _, _, _, split, done,
        (fails_setAside_iff rejects).mpr ⟨real, name, rfl, rfl⟩⟩
    | unwrappedTarget split done target =>
      obtain ⟨mid, moved, linked⟩ := completes_append_iff.mp done
      exact Or.inr ⟨mid, moved, fails_flatMap_iff.mpr ⟨_, _, _, _, split, linked,
        (fails_linkSteps_iff rejects).mpr ⟨target, rfl, rfl⟩⟩⟩

/-! ### What is left -/

/-- What an install leaves in the directory at `l` that stopped once some tools were moved aside and
some aliases were linked. -/
structure Stopped (l : Location) (moved : List String) (linked : List Alias) (t u : FileTree) :
    Prop where
  here : u.here = t.here
  /-- The compiler of a tool that was moved aside stands beside it. -/
  real : ∀ tool ∈ moved, (compiler? t l tool).isSome ∧
    u.node? (realAt l tool) = compiler? t l tool
  /-- Under its own name is nothing more, unless there already was a compiler beside it. -/
  name : ∀ tool ∈ moved, u.node? (nameAt l tool) =
    if (t.node? (realAt l tool)).isSome then t.node? (nameAt l tool) else none
  links : ∀ name target, target? linked name = some target →
    u.node? (realAt l name) = some (.link (Bytes.ofText (target ++ realSuffix)))
  /-- Everything else is as it was. -/
  frame : ∀ place, (∀ tool ∈ moved, place ≠ nameAt l tool ∧ place ≠ realAt l tool) →
    (∀ a ∈ linked, place ≠ realAt l a.name) → u.node? place = t.node? place

/-- What moving one tool aside leaves. -/
theorem setAside_stopped (apart : plan.Apart) (mem : tool ∈ plan.tools)
    (leads : LeadsTo t plan.dir l left) (files : HasFiles t l tool)
    (taken : ((Step.setAside tool).run plan t).tree = .ok u) : Stopped l [tool] [] t u := by
  have named := mem_names_of_tool mem
  have no_links : ∀ name target, target? [] name = some target →
      u.node? (realAt l name) = some (.link (Bytes.ofText (target ++ realSuffix))) :=
    fun name target none => by cases none
  obtain ⟨-, ⟨some, rfl⟩ | ⟨missing, mode, contents, node, rfl⟩⟩ :=
    setAside_cases (apart.isName tool named) leads files taken
  · have compiler : compiler? u l tool = u.node? (realAt l tool) := Option.or_of_isSome some
    refine ⟨rfl, ?_, ?_, no_links, fun _ _ _ => rfl⟩
    · rw [List.forall_mem_singleton, compiler]
      exact ⟨some, rfl⟩
    · rw [List.forall_mem_singleton, if_pos some]
  · have compiler : compiler? t l tool = .some (.file mode contents) := by
      unfold compiler?
      rw [missing, node]
      rfl
    have ne : nameAt l tool ≠ realAt l tool := (real_ne_name apart named named).symm
    refine ⟨rfl, ?_, ?_, no_links, ?_⟩
    · rw [List.forall_mem_singleton, compiler, node?_put _ (realAt_ne_nil l tool), if_pos rfl]
      exact ⟨rfl, rfl⟩
    · rw [List.forall_mem_singleton, missing, node?_put _ (realAt_ne_nil l tool), if_neg ne,
        node?_remove _ (nameAt_ne_nil l tool), if_pos rfl]
      rfl
    · intro place others _
      obtain ⟨ne_name, ne_real⟩ := others tool (List.mem_singleton_self tool)
      rw [node?_put _ (realAt_ne_nil l tool), if_neg ne_real, node?_remove _ (nameAt_ne_nil l tool),
        if_neg ne_name]

/-- What one tool and then others leave that are moved aside, all of them leave. -/
theorem Stopped.cons (apart : plan.Apart) {mid : FileTree} {tools : List String}
    (mem : tool ∈ plan.tools) (sub : ∀ tool ∈ tools, tool ∈ plan.tools) (aside : Aside plan l t mid)
    (first : Stopped l [tool] [] t mid) (later : Stopped l tools [] mid u) :
    Stopped l (tool :: tools) [] t u := by
  have others : ∀ other ∈ plan.tools, other ≠ tool →
      (nameAt l other ≠ realAt l tool ∧ nameAt l other ≠ nameAt l tool) ∧
        realAt l other ≠ realAt l tool ∧ realAt l other ≠ nameAt l tool :=
    fun other h ne => places_apart apart (mem_names_of_tool mem) (mem_names_of_tool h) ne
  have frame : ∀ place, place ≠ nameAt l tool ∧ place ≠ realAt l tool →
      mid.node? place = t.node? place :=
    fun place ne => first.frame place (List.forall_mem_singleton.mpr ne) (by simp)
  have last : tool ∉ tools → u.node? (nameAt l tool) = mid.node? (nameAt l tool) ∧
      u.node? (realAt l tool) = mid.node? (realAt l tool) := by
    intro last
    have apart : ∀ other ∈ tools, _ := fun other h =>
      others other (sub other h) fun same => last (same ▸ h)
    constructor
    · exact later.frame _ (fun other h => ⟨(apart other h).1.2.symm, (apart other h).2.2.symm⟩)
        (by simp)
    · exact later.frame _ (fun other h => ⟨(apart other h).1.1.symm, (apart other h).2.1.symm⟩)
        (by simp)
  have real := first.real tool (List.mem_singleton_self tool)
  have name := first.name tool (List.mem_singleton_self tool)
  constructor
  case here => exact later.here.trans first.here
  case links => exact fun name target none => by cases none
  case real =>
    intro other h
    by_cases again : other ∈ tools
    · rw [← aside.compilers other (sub other again)]
      exact later.real other again
    · obtain rfl := (List.mem_cons.mp h).resolve_right again
      rw [(last again).2]
      exact real
  case name =>
    intro other h
    by_cases again : other ∈ tools
    · rw [later.name other again]
      by_cases same : other = tool
      · subst same
        rw [real.2, if_pos real.1, name]
      · obtain ⟨⟨ne_real, ne_name⟩, ne_real', ne_name'⟩ := others other (sub other again) same
        rw [frame _ ⟨ne_name, ne_real⟩, frame _ ⟨ne_name', ne_real'⟩]
    · obtain rfl := (List.mem_cons.mp h).resolve_right again
      rw [(last again).1, name]
  case frame =>
    intro place others _
    obtain ⟨ne, others⟩ := List.forall_mem_cons.mp others
    rw [later.frame place others (by simp), frame place ne]

/-- What moving tools aside leaves. -/
theorem setAsides_stopped (apart : plan.Apart) {tools : List String}
    (sub : ∀ tool ∈ tools, tool ∈ plan.tools) (leads : LeadsTo t plan.dir l left)
    (files : ∀ tool ∈ plan.tools, HasFiles t l tool)
    (done : Completes plan t (tools.map .setAside) u) : Stopped l tools [] t u := by
  induction tools generalizing t with
  | nil =>
    obtain rfl := completes_nil_iff.mp done
    exact ⟨rfl, by simp, by simp, by simp [target?], fun _ _ _ => rfl⟩
  | cons tool tools ih =>
    obtain ⟨mem, sub⟩ := List.forall_mem_cons.mp sub
    obtain ⟨mid, taken, rest⟩ := completes_cons_iff.mp done
    obtain ⟨aside, -, -⟩ := setAside_run apart leads files mem taken
    have first := setAside_stopped apart mem leads (files tool mem) taken
    exact first.cons apart mem sub aside (ih sub (aside.leadsTo files leads) aside.files rest)

/-- Where nothing had to be moved and all links were there before, nothing is changed, and nowhere
else. -/
theorem Stopped.unchanged_iff {moved : List String} {linked : List Alias}
    (stopped : Stopped l moved linked t u) :
    (∀ place, u.node? place = t.node? place) ↔
      (∀ tool ∈ moved, (t.node? (realAt l tool)).isSome) ∧
        ∀ name target, target? linked name = some target →
          t.node? (realAt l name) = some (.link (Bytes.ofText (target ++ realSuffix))) := by
  constructor
  · intro same
    constructor
    · intro tool h
      obtain ⟨some, real⟩ := stopped.real tool h
      rw [← same, real]
      exact some
    · intro name target last
      rw [← same]
      exact stopped.links name target last
  · rintro ⟨settled, links⟩ place
    by_cases tool : ∃ tool ∈ moved, place = nameAt l tool ∨ place = realAt l tool
    · obtain ⟨tool, h, rfl | rfl⟩ := tool
      · rw [stopped.name tool h, if_pos (settled tool h)]
      · rw [(stopped.real tool h).2]
        exact Option.or_of_isSome (settled tool h)
    by_cases linked' : ∃ a ∈ linked, place = realAt l a.name
    · obtain ⟨a, h, rfl⟩ := linked'
      cases last : target? linked a.name with
      | none => exact absurd rfl (ne_of_target?_eq_none last h)
      | some target => rw [stopped.links a.name target last, links a.name target last]
    · refine stopped.frame place ?_ fun a h same => linked' ⟨a, h, same⟩
      exact fun other h => ⟨fun same => tool ⟨other, h, Or.inl same⟩,
        fun same => tool ⟨other, h, Or.inr same⟩⟩

/-- Aliases that are linked change nothing of what was moved aside. -/
theorem Stopped.link {mid : FileTree} {moved : List String} {linked : List Alias}
    (stopped : Stopped l moved [] t mid) (links : Linked plan l left linked mid u)
    (apart : ∀ tool ∈ moved, ∀ a ∈ linked,
      nameAt l tool ≠ realAt l a.name ∧ realAt l tool ≠ realAt l a.name) :
    Stopped l moved linked t u := by
  constructor
  case here => exact links.here.trans stopped.here
  case real =>
    intro tool h
    rw [links.frame _ fun a mem => (apart tool h a mem).2]
    exact stopped.real tool h
  case name =>
    intro tool h
    rw [links.frame _ fun a mem => (apart tool h a mem).1]
    exact stopped.name tool h
  case links => exact links.links
  case frame =>
    intro place others outside
    rw [links.frame place outside, stopped.frame place others (by simp)]

/-- **What a rejected install leaves.** -/
theorem stopped_of_rejected (distinct : plan.Distinct)
    (dir : t.resolve (plan.dir.join Path.here) = .ok l)
    (files : ∀ tool ∈ plan.tools, HasFiles t l tool) {moved : List String} {linked : List Alias}
    (rejected : Rejected plan t u failure moved linked) : Stopped l moved linked t u := by
  have apart := distinct.apart
  obtain ⟨left, leads⟩ := leadsTo_of_resolve dir
  cases rejected with
  | missingTool split done =>
    have sub : ∀ tool ∈ moved, tool ∈ plan.tools :=
      fun tool h => split ▸ List.mem_append_left _ h
    exact setAsides_stopped apart sub leads files done
  | unwrappedTarget split done =>
    have sub : ∀ a ∈ linked, a ∈ plan.aliases := fun a h => split ▸ List.mem_append_left _ h
    obtain ⟨mid, moving, linking⟩ := completes_append_iff.mp done
    have stopped := setAsides_stopped apart (fun _ h => h) leads files moving
    have aside := (setAside_phase apart (fun _ h => h) leads files moving).1
    refine stopped.link (link_phase apart sub (aside.leadsTo files leads) linking) ?_
    intro tool h a mem
    have ne : tool ≠ a.name := fun same => distinct.alias_not_tool a (sub a mem) (same ▸ h)
    have places := places_apart (l := l) apart (mem_names_of_alias (sub a mem))
      (mem_names_of_tool h) ne
    exact ⟨places.1.1, places.2.1⟩

/-- A tool that was moved aside before is left alone, in whichever tree. -/
theorem eq_of_settled {tools : List String}
    (settled : ∀ tool ∈ tools, t.isPresent (plan.realPath tool) = true)
    (done : Completes plan t (tools.map .setAside) u) : u = t := by
  induction tools with
  | nil => exact (completes_nil_iff.mp done).symm
  | cons tool tools ih =>
    obtain ⟨first, rest⟩ := List.forall_mem_cons.mp settled
    obtain ⟨mid, taken, done⟩ := completes_cons_iff.mp done
    rw [tree_setAside, if_pos first] at taken
    obtain rfl := Except.ok.inj taken
    exact ih rest done

/-- **Which installs are rejected, and what they leave.** An install is rejected at the first tool
that is missing, after the tools before it were moved aside, or else at the first alias that points
elsewhere, after the aliases before it were linked. No wrapper is placed, and nothing is taken back:
if all names are apart, the tree is the same at every place exactly if those tools had been moved
aside before, and those aliases linked. -/
theorem run_rejected (rejects : failure.Rejects) :
    ((run plan t).failure? = some failure ∧ (run plan t).tree = u ↔
        ∃ moved linked, Rejected plan t u failure moved linked) ∧
      ∀ moved linked, Rejected plan t u failure moved linked →
        ((∀ tool ∈ moved, t.isPresent (plan.realPath tool) = true) → linked = [] → u = t) ∧
        (plan.Distinct → ∀ l, t.resolve (plan.dir.join Path.here) = .ok l →
          (∀ tool ∈ plan.tools, HasFiles t l tool) →
            Stopped l moved linked t u ∧
            ((∀ place, u.node? place = t.node? place) ↔
              (∀ tool ∈ moved, (t.node? (realAt l tool)).isSome) ∧
                ∀ name target, target? linked name = some target →
                  t.node? (realAt l name) =
                    some (.link (Bytes.ofText (target ++ realSuffix))))) := by
  refine ⟨rejected_iff rejects, ?_⟩
  intro moved linked rejected
  constructor
  · rintro settled rfl
    cases rejected with
    | missingTool _ done => exact eq_of_settled settled done
    | unwrappedTarget _ done =>
      rw [List.flatMap_nil, List.append_nil] at done
      exact eq_of_settled settled done
  · intro distinct l dir files
    have stopped := stopped_of_rejected distinct dir files rejected
    exact ⟨stopped, stopped.unchanged_iff⟩

/-! ### A compiler that was moved aside for nothing -/

namespace Halfway

/-- The directory of a compiler. -/
def bin : Location := [Bytes.ofText "bin"]

/-- The compiler and the wrapper. -/
def tree : FileTree where
  nodes := [(bin, .directory), (nameAt bin "clang", .file 0o755 [1]),
    ([Bytes.ofText "ccwrap"], .file 0o755 [0])]
  here := []

/-- Installs the wrapper in front of the compiler and of others that are not there. -/
def planFor (others : List String) (aliases : List Alias) : Plan where
  dir := Bytes.ofText "/bin"
  wrapper := Bytes.ofText "/ccwrap"
  tools := "clang" :: others
  aliases := aliases

/-- The second tool is not there. -/
def missing : Plan := planFor ["clang-format"] []

/-- The alias points at a name that is not among the tools. -/
def misdirected : Plan := planFor [] [⟨"x", "clang-18"⟩]

end Halfway

open Halfway

/-- The first tool is moved aside, and the second one is missing. -/
theorem run_rejected_missing :
    (run missing tree).failure? =
        some (.missingTool (missing.path "clang-format") (missing.realPath "clang-format")) ∧
      Stopped bin ["clang"] [] tree (run missing tree).tree ∧
      ¬ ∀ place, (run missing tree).tree.node? place = tree.node? place := by
  have distinct : missing.Distinct := by decide +kernel
  have files : ∀ tool ∈ missing.tools, HasFiles tree bin tool := by decide +kernel
  have rejected : Rejected missing tree (run missing tree).tree
      (.missingTool (missing.path "clang-format") (missing.realPath "clang-format"))
      ["clang"] [] :=
    .missingTool rfl ⟨by decide +kernel, rfl⟩ (by decide +kernel) (by decide +kernel)
  have exactly := @run_rejected missing tree (run missing tree).tree
    (.missingTool (missing.path "clang-format") (missing.realPath "clang-format")) trivial
  obtain ⟨stopped, unchanged⟩ := (exactly.2 _ _ rejected).2 distinct bin rfl files
  refine ⟨(exactly.1.mpr ⟨_, _, rejected⟩).1, stopped, ?_⟩
  rw [unchanged]
  rintro ⟨settled, -⟩
  exact absurd (settled "clang" (by simp)) (by decide)

/-- An install that is rejected, for a tool that is missing or for an alias, may have moved a
compiler that is not found under its name any more. -/
theorem rejected_not_unchanged :
    tree.resolve (missing.path "clang") = .ok (nameAt bin "clang") ∧
      (run missing tree).failure? =
        some (.missingTool (missing.path "clang-format") (missing.realPath "clang-format")) ∧
      (run missing tree).tree.resolve (missing.path "clang") = .error .notFound ∧
      (run misdirected tree).failure? = some (.unwrappedTarget "x" "clang-18") ∧
      (run misdirected tree).tree.resolve (misdirected.path "clang") = .error .notFound := by
  decide +kernel

end Install

end CompilerWrapper
