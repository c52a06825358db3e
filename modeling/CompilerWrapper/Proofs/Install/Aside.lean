import CompilerWrapper.Install
import CompilerWrapper.Proofs.FileTree.Change
import CompilerWrapper.Proofs.Text.Utf8

/-!
# Moving tools aside

An install that succeeds is taken apart into its steps (`Completes`). The first of them move the
tools aside. That keeps everything but the tools themselves, and it keeps which file is the compiler
of a tool (`Aside`).
-/

namespace CompilerWrapper.Install

open FileTree

variable {plan : Plan} {t u v : FileTree} {l : Location} {left : Nat}

/-! ### Names -/

/-- The place of a name in the directory of the compilers. -/
def nameAt (l : Location) (name : String) : Location := l ++ [Bytes.ofText name]

/-- The place of the real compiler of a name. -/
def realAt (l : Location) (name : String) : Location := nameAt l (name ++ realSuffix)

/-- The compiler of a tool: what was moved aside, or else the tool itself. -/
def compiler? (t : FileTree) (l : Location) (tool : String) : Option Node :=
  (t.node? (realAt l tool)).or (t.node? (nameAt l tool))

/-- The names of a plan are names, and none is in the way of another. -/
structure Plan.Distinct (plan : Plan) : Prop where
  isName : ∀ name ∈ plan.names, Path.IsName (Bytes.ofText name)
  alias_not_tool : ∀ a ∈ plan.aliases, a.name ∉ plan.tools
  not_real : ∀ name ∈ plan.names, ∀ other ∈ plan.names, name ≠ other ++ realSuffix

/-- The names of a plan are names, and none is that of the real compiler of another. -/
structure Plan.Apart (plan : Plan) : Prop where
  isName : ∀ name ∈ plan.names, Path.IsName (Bytes.ofText name)
  not_real : ∀ name ∈ plan.names, ∀ other ∈ plan.names, name ≠ other ++ realSuffix

instance (plan : Plan) : Decidable plan.Distinct :=
  decidable_of_iff ((∀ name ∈ plan.names, Path.IsName (Bytes.ofText name)) ∧
      (∀ a ∈ plan.aliases, a.name ∉ plan.tools) ∧
      ∀ name ∈ plan.names, ∀ other ∈ plan.names, name ≠ other ++ realSuffix)
    ⟨fun h => ⟨h.1, h.2.1, h.2.2⟩, fun h => ⟨h.isName, h.alias_not_tool, h.not_real⟩⟩

theorem Plan.Distinct.apart (distinct : plan.Distinct) : plan.Apart :=
  ⟨distinct.isName, distinct.not_real⟩

theorem ofText_append (a b : String) : Bytes.ofText (a ++ b) = Bytes.ofText a ++ Bytes.ofText b := by
  unfold Bytes.ofText
  rw [String.toList_append, Utf8.encode_append]

theorem ofText_inj {a b : String} (same : Bytes.ofText a = Bytes.ofText b) : a = b :=
  String.toList_inj.mp (Utf8.encode_inj same)

theorem nameAt_inj {a b : String} (same : nameAt l a = nameAt l b) : a = b :=
  ofText_inj (List.cons.inj (List.append_cancel_left same)).1

theorem realAt_inj {a b : String} (same : realAt l a = realAt l b) : a = b := by
  have text := nameAt_inj same
  rw [String.append_left_inj] at text
  exact text

theorem nameAt_ne_nil (l : Location) (name : String) : nameAt l name ≠ [] :=
  place_ne_nil l _

theorem realAt_ne_nil (l : Location) (name : String) : realAt l name ≠ [] :=
  place_ne_nil l _

theorem isProper_withRealSuffix {name : Name} (proper : Path.IsProper name) :
    Path.IsProper (withRealSuffix name) := by
  have length : (withRealSuffix name).length = name.length + 5 := List.length_append
  refine ⟨fun empty => ?_, ?_, fun same => ?_, fun same => ?_⟩
  · simp [empty] at length
  · exact List.not_mem_append proper.no_slash (by decide)
  · simp [same, Path.here] at length
  · simp [same, Path.above] at length

theorem isName_real {name : String} (isName : Path.IsName (Bytes.ofText name)) :
    Path.IsName (Bytes.ofText (name ++ realSuffix)) := by
  rw [ofText_append]
  exact ⟨isProper_withRealSuffix isName.toIsProper,
    List.not_mem_append isName.no_zero (by decide)⟩

theorem mem_names_of_tool {tool : String} (h : tool ∈ plan.tools) : tool ∈ plan.names :=
  List.mem_append_left _ h

theorem mem_names_of_alias {a : Alias} (h : a ∈ plan.aliases) : a.name ∈ plan.names :=
  List.mem_append_right _ (List.mem_map_of_mem h)

/-- The entries of one name are apart from those of another. -/
theorem places_apart (apart : plan.Apart) {name other : String} (mem : name ∈ plan.names)
    (mem' : other ∈ plan.names) (ne : other ≠ name) :
    (nameAt l other ≠ realAt l name ∧ nameAt l other ≠ nameAt l name) ∧
      realAt l other ≠ realAt l name ∧ realAt l other ≠ nameAt l name :=
  ⟨⟨mt nameAt_inj (apart.not_real other mem' name mem), mt nameAt_inj ne⟩, mt realAt_inj ne,
    mt nameAt_inj (apart.not_real name mem other mem').symm⟩

/-! ### Steps -/

/-- The steps are taken without a failure and leave the tree `u`. -/
def Completes (plan : Plan) (t : FileTree) (steps : List Step) (u : FileTree) : Prop :=
  (runSteps plan t steps).failure? = none ∧ (runSteps plan t steps).tree = u

theorem completes_nil_iff : Completes plan t [] u ↔ t = u := by
  unfold Completes runSteps
  exact and_iff_right rfl

theorem completes_cons_iff {step : Step} {steps : List Step} :
    Completes plan t (step :: steps) u ↔
      ∃ mid, (step.run plan t).tree = .ok mid ∧ Completes plan mid steps u := by
  unfold Completes
  rw [runSteps]
  obtain ⟨told, tree⟩ := step.run plan t
  cases tree with
  | error failure => simp
  | ok mid => simp

theorem completes_append_iff {steps more : List Step} :
    Completes plan t (steps ++ more) u ↔
      ∃ mid, Completes plan t steps mid ∧ Completes plan mid more u := by
  induction steps generalizing t with
  | nil => simp [completes_nil_iff]
  | cons step steps ih =>
    simp only [List.cons_append, completes_cons_iff, ih]
    constructor
    · rintro ⟨first, taken, mid, rest, done⟩
      exact ⟨mid, ⟨first, taken, rest⟩, done⟩
    · rintro ⟨mid, ⟨first, taken, rest⟩, done⟩
      exact ⟨first, taken, mid, rest, done⟩

theorem tree_setAside (plan : Plan) (t : FileTree) (tool : String) :
    ((Step.setAside tool).run plan t).tree =
      if t.isPresent (plan.realPath tool) then .ok t
      else if t.isPresent (plan.path tool) then
        (t.rename (plan.path tool) (plan.realPath tool)).mapError
          (.refused (.moving (plan.path tool)))
      else .error (.missingTool (plan.path tool) (plan.realPath tool)) := by
  unfold Step.run
  dsimp only
  split
  · rfl
  · split <;> rfl

theorem tree_check (plan : Plan) (t : FileTree) (a : Alias) :
    ((Step.check a).run plan t).tree =
      if a.target ∈ plan.tools then .ok t else .error (.unwrappedTarget a.name a.target) := rfl

theorem tree_clear (plan : Plan) (t : FileTree) (p : Path) :
    ((Step.clear p).run plan t).tree =
      if t.isEntered p then (t.unlink p).mapError (.refused (.removing p)) else .ok t := rfl

theorem tree_place (plan : Plan) (t : FileTree) (name : String) :
    ((Step.place name).run plan t).tree =
      (t.copy plan.wrapper (plan.path name)).mapError
        (.refused (.copying plan.wrapper (plan.path name))) := by
  unfold Step.run
  dsimp only
  cases t.copy plan.wrapper (plan.path name) <;> rfl

/-! ### Moving tools aside -/

/-- The tool and its real compiler are files, so far as they are there. -/
def HasFiles (t : FileTree) (l : Location) (tool : String) : Prop :=
  ∀ place, place = nameAt l tool ∨ place = realAt l tool → ∀ n, t.node? place = some n →
    ∃ mode contents, n = .file mode contents

instance : (n : Node) → Decidable (∃ mode contents, n = .file mode contents)
  | .file mode contents => isTrue ⟨mode, contents, rfl⟩
  | .directory | .link _ | .device _ => isFalse (by simp)

instance (t : FileTree) (l : Location) (tool : String) : Decidable (HasFiles t l tool) :=
  decidable_of_iff (∀ place ∈ [nameAt l tool, realAt l tool], ∀ n ∈ t.node? place,
      ∃ mode contents, n = .file mode contents) (by simp [HasFiles])

theorem HasFiles.compiler {tool : String} (files : HasFiles t l tool) {n : Node}
    (h : compiler? t l tool = some n) : ∃ mode contents, n = .file mode contents := by
  unfold compiler? at h
  rcases Option.or_eq_some_iff.mp h with real | ⟨-, name⟩
  · exact files _ (Or.inr rfl) n real
  · exact files _ (Or.inl rfl) n name

/-- The tree `u` comes of `t` by moving tools aside. -/
structure Aside (plan : Plan) (l : Location) (t u : FileTree) : Prop where
  here : u.here = t.here
  files : ∀ tool ∈ plan.tools, HasFiles u l tool
  compilers : ∀ tool ∈ plan.tools, compiler? u l tool = compiler? t l tool
  /-- A real compiler stays where it is. -/
  real : ∀ tool ∈ plan.tools, (t.node? (realAt l tool)).isSome → (u.node? (realAt l tool)).isSome
  /-- What is no compiler stays where it is. -/
  kept : ∀ place n, t.node? place = some n → (∀ tool ∈ plan.tools, compiler? t l tool ≠ some n) →
    u.node? place = some n
  frame : ∀ place, (∀ tool ∈ plan.tools, place ≠ nameAt l tool ∧ place ≠ realAt l tool) →
    u.node? place = t.node? place

namespace Aside

theorem refl (files : ∀ tool ∈ plan.tools, HasFiles t l tool) : Aside plan l t t where
  here := rfl
  files := files
  compilers := fun _ _ => rfl
  real := fun _ _ h => h
  kept := fun _ _ h _ => h
  frame := fun _ _ => rfl

theorem trans (aside : Aside plan l t u) (aside' : Aside plan l u v) : Aside plan l t v where
  here := aside'.here.trans aside.here
  files := aside'.files
  compilers := fun tool h => (aside'.compilers tool h).trans (aside.compilers tool h)
  real := fun tool h some => aside'.real tool h (aside.real tool h some)
  kept := by
    intro place n node other
    apply aside'.kept place n (aside.kept place n node other)
    intro tool h
    rw [aside.compilers tool h]
    exact other tool h
  frame := fun place other => (aside'.frame place other).trans (aside.frame place other)

/-- Directories and links stay where they are. -/
theorem ways (aside : Aside plan l t u) (files : ∀ tool ∈ plan.tools, HasFiles t l tool)
    (place : Location) (n : Node) (node : t.node? place = some n) (leadsOn : n.LeadsOn) :
    u.node? place = some n := by
  apply aside.kept place n node
  intro tool h compiler
  obtain ⟨mode, contents, rfl⟩ := (files tool h).compiler compiler
  exact leadsOn

theorem leadsTo (aside : Aside plan l t u) (files : ∀ tool ∈ plan.tools, HasFiles t l tool)
    (leads : LeadsTo t plan.dir l left) : LeadsTo u plan.dir l left :=
  leads.congr aside.here (aside.ways files)

end Aside

variable {tool : String}

/-- A tool whose real compiler is missing is moved to where that is looked for. -/
theorem aside_of_move (apart : plan.Apart)
    (files : ∀ tool ∈ plan.tools, HasFiles t l tool) (mem : tool ∈ plan.tools)
    (missing : t.node? (realAt l tool) = none) {mode : Nat} {contents : Bytes}
    (node : t.node? (nameAt l tool) = some (.file mode contents)) :
    Aside plan l t ((t.remove (nameAt l tool)).put (realAt l tool) (.file mode contents)) := by
  have view : ∀ place,
      ((t.remove (nameAt l tool)).put (realAt l tool) (.file mode contents)).node? place =
        if place = realAt l tool then some (.file mode contents)
        else if place = nameAt l tool then none else t.node? place := by
    intro place
    rw [node?_put _ (realAt_ne_nil l tool), node?_remove _ (nameAt_ne_nil l tool)]
  have compiler : compiler? t l tool = some (.file mode contents) := by
    unfold compiler?
    rw [missing, node]
    rfl
  have others : ∀ other ∈ plan.tools, other ≠ tool →
      (nameAt l other ≠ realAt l tool ∧ nameAt l other ≠ nameAt l tool) ∧
        realAt l other ≠ realAt l tool ∧ realAt l other ≠ nameAt l tool :=
    fun other h ne => places_apart apart (mem_names_of_tool mem) (mem_names_of_tool h) ne
  constructor
  case here => rfl
  case files =>
    intro other h place at_other n
    rw [view place]
    split
    · rintro ⟨⟩
      exact ⟨mode, contents, rfl⟩
    · split
      · rintro ⟨⟩
      · exact files other h place at_other n
  case compilers =>
    intro other h
    by_cases ne : other = tool
    · subst ne
      rw [compiler]
      unfold compiler?
      rw [view, if_pos rfl]
      rfl
    · obtain ⟨⟨name₁, name₂⟩, real₁, real₂⟩ := others other h ne
      unfold compiler?
      rw [view, view, if_neg real₁, if_neg real₂, if_neg name₁, if_neg name₂]
  case real =>
    intro other h some
    by_cases ne : other = tool
    · rw [ne, missing] at some
      cases some
    · obtain ⟨-, real₁, real₂⟩ := others other h ne
      rw [view, if_neg real₁, if_neg real₂]
      exact some
  case kept =>
    intro place n at_place other
    have ne₁ : place ≠ realAt l tool := by
      rintro rfl
      rw [missing] at at_place
      cases at_place
    have ne₂ : place ≠ nameAt l tool := by
      rintro rfl
      exact other tool mem (by rw [compiler, ← node, at_place])
    rw [view, if_neg ne₁, if_neg ne₂]
    exact at_place
  case frame =>
    intro place other
    obtain ⟨ne₁, ne₂⟩ := other tool mem
    rw [view, if_neg ne₂, if_neg ne₁]

/-- **What moving a tool aside does.** Nothing, if its real compiler is there already; otherwise the
tool becomes its real compiler. -/
theorem setAside_cases (isName : Path.IsName (Bytes.ofText tool)) (leads : LeadsTo t plan.dir l left)
    (files : HasFiles t l tool) (taken : ((Step.setAside tool).run plan t).tree = .ok u) :
    Nameable plan.dir (Bytes.ofText (tool ++ realSuffix)) ∧
      (((t.node? (realAt l tool)).isSome ∧ u = t) ∨
        (t.node? (realAt l tool) = none ∧ ∃ mode contents,
          t.node? (nameAt l tool) = some (.file mode contents) ∧
            u = (t.remove (nameAt l tool)).put (realAt l tool) (.file mode contents))) := by
  have real := isPresent_join_iff (isName_real isName) leads (files _ (Or.inr rfl))
  have name := isPresent_join_iff isName leads (files _ (Or.inl rfl))
  rw [tree_setAside] at taken
  by_cases present : t.isPresent (plan.realPath tool) = true
  · rw [if_pos present] at taken
    obtain rfl := Except.ok.inj taken
    exact ⟨(real.mp present).1, Or.inl ⟨(real.mp present).2, rfl⟩⟩
  by_cases present' : t.isPresent (plan.path tool) = true
  · rw [if_neg present, if_pos present'] at taken
    have renamed := ok_of_mapError taken
    have nameable := nameable_of_rename (isName_real isName) renamed
    have missing : t.node? (realAt l tool) = none := by
      rw [← Option.not_isSome_iff_eq_none]
      intro some
      exact present (real.mpr ⟨nameable, some⟩)
    obtain ⟨nameable', some⟩ := name.mp present'
    obtain ⟨n, node⟩ := Option.isSome_iff_exists.mp some
    obtain ⟨mode, contents, rfl⟩ := files _ (Or.inl rfl) n node
    have moved := rename_join nameable' nameable leads node missing
    obtain rfl := Except.ok.inj (moved.symm.trans renamed)
    exact ⟨nameable, Or.inr ⟨missing, mode, contents, node, rfl⟩⟩
  · rw [if_neg present, if_neg present'] at taken
    cases taken

theorem setAside_run (apart : plan.Apart) (leads : LeadsTo t plan.dir l left)
    (files : ∀ tool ∈ plan.tools, HasFiles t l tool) (mem : tool ∈ plan.tools)
    (taken : ((Step.setAside tool).run plan t).tree = .ok u) :
    Aside plan l t u ∧ (u.node? (realAt l tool)).isSome ∧
      Nameable plan.dir (Bytes.ofText (tool ++ realSuffix)) := by
  have isName := apart.isName tool (mem_names_of_tool mem)
  obtain ⟨nameable, ⟨some, rfl⟩ | ⟨missing, mode, contents, node, rfl⟩⟩ :=
    setAside_cases isName leads (files tool mem) taken
  · exact ⟨.refl files, some, nameable⟩
  · refine ⟨aside_of_move apart files mem missing node, ?_, nameable⟩
    rw [node?_put _ (realAt_ne_nil l tool), if_pos rfl]
    rfl

/-- **Moving tools aside puts the compiler of each of them where a real compiler belongs.** -/
theorem setAside_phase (apart : plan.Apart) {tools : List String}
    (sub : ∀ tool ∈ tools, tool ∈ plan.tools) (leads : LeadsTo t plan.dir l left)
    (files : ∀ tool ∈ plan.tools, HasFiles t l tool)
    (done : Completes plan t (tools.map .setAside) u) :
    Aside plan l t u ∧ ∀ tool ∈ tools, (u.node? (realAt l tool)).isSome ∧
      Nameable plan.dir (Bytes.ofText (tool ++ realSuffix)) := by
  induction tools generalizing t with
  | nil =>
    obtain rfl := completes_nil_iff.mp done
    exact ⟨.refl files, by simp⟩
  | cons tool tools ih =>
    obtain ⟨mid, taken, rest⟩ := completes_cons_iff.mp done
    have mem := sub tool List.mem_cons_self
    obtain ⟨aside, first, nameable⟩ := setAside_run apart leads files mem taken
    obtain ⟨aside', others⟩ := ih (fun tool h => sub tool (List.mem_cons_of_mem _ h))
      (aside.leadsTo files leads) aside.files rest
    refine ⟨aside.trans aside', ?_⟩
    intro other h
    rcases List.mem_cons.mp h with rfl | h
    · exact ⟨aside'.real other mem first, nameable⟩
    · exact others other h

end CompilerWrapper.Install
