import CompilerWrapper.Proofs.Path.Components
import CompilerWrapper.Proofs.Process.Serving
import Mathlib.Data.List.TakeWhile

/-!
# What a process that runs the wrapper's program acts as

The program has two parts: it is the administration command line, and it stands in for a compiler.
Its file tells which compiler that is, but which part the process takes is told by the name that its
caller passes. `role_iff` says what follows: the process is the administration command line exactly
if the file name in the passed name is `ccwrap`, with or without an extension, and otherwise stands
in for the compiler under whose name its own file lies. So the name of the file decides only as long
as callers pass that name, and it is not `ccwrap` with an extension. `role_misled` are three
processes of which this is not so.
-/

namespace CompilerWrapper

open FileTree

/-! ### The name that a caller passes -/

namespace Path

theorem cutExtension?_of_no_dot {name : Name} (no_dot : dot ∉ name) : cutExtension? name = none := by
  have plain : ∀ b ∈ name.reverse, (b != dot) = true := by
    intro b mem
    rw [bne_iff_ne]
    rintro rfl
    exact no_dot (List.mem_reverse.mp mem)
  have whole : name.reverse.takeWhile (· != dot) = name.reverse :=
    List.takeWhile_eq_self_iff.mpr plain
  unfold cutExtension?
  simp only [whole, List.length_reverse, if_true]

/-- A name is cut at its last dot. -/
theorem cutExtension?_append (before : Bytes) {extension : Bytes} (no_dot : dot ∉ extension) :
    cutExtension? (before ++ dot :: extension) = some (before, extension) := by
  have plain : ∀ b ∈ extension.reverse, (b != dot) = true := by
    intro b mem
    rw [bne_iff_ne]
    rintro rfl
    exact no_dot (List.mem_reverse.mp mem)
  have backward : (before ++ dot :: extension).reverse =
      extension.reverse ++ dot :: before.reverse := by simp
  have taken : (before ++ dot :: extension).reverse.takeWhile (· != dot) = extension.reverse := by
    rw [backward, List.takeWhile_append_of_pos plain, List.takeWhile_cons_of_neg (by simp),
      List.append_nil]
  have dropped : (before ++ dot :: extension).reverse.drop (extension.reverse.length + 1) =
      before.reverse := by
    rw [backward, List.drop_append, List.drop_of_length_le (by simp)]
    simp
  have shorter : extension.reverse.length ≠ (before ++ dot :: extension).length := by
    simp only [List.length_reverse, List.length_append, List.length_cons]
    omega
  unfold cutExtension?
  simp only [taken, dropped, if_neg shorter, List.reverse_reverse]

/-- The last dot of a name. -/
theorem exists_extension {name : Name} (has_dot : dot ∈ name) :
    ∃ before extension, name = before ++ dot :: extension ∧ dot ∉ extension := by
  obtain ⟨after, before, backward, no_dot⟩ :=
    List.eq_append_cons_of_mem (List.mem_reverse.mpr has_dot)
  refine ⟨before.reverse, after.reverse, ?_, fun mem => no_dot (List.mem_reverse.mp mem)⟩
  rw [List.reverse_eq_iff.mp backward]
  simp

end Path

namespace Admin

/-- The file name under which the program is the administration command line, as bytes. -/
def ownName : Name := Bytes.ofText programName

/-- The file name in the passed name is that of the administration command line, with or without an
extension. -/
def IsNamed (arg0 : Path) : Prop :=
  ∃ name, arg0.fileName? = some name ∧
    (name = ownName ∨ ∃ extension, Path.dot ∉ extension ∧ name = ownName ++ Path.dot :: extension)

theorem isAdmin_iff (arg0 : Path) : isAdmin arg0 = true ↔ IsNamed arg0 := by
  have no_dot : Path.dot ∉ ownName := by decide
  unfold isAdmin IsNamed Path.stem?
  rw [beq_iff_eq]
  cases arg0.fileName? with
  | none => simp
  | some name =>
    rw [Option.map_some, Option.some.injEq]
    change _ = ownName ↔ _
    constructor
    · intro stem
      refine ⟨name, rfl, ?_⟩
      by_cases has_dot : Path.dot ∈ name
      · obtain ⟨before, extension, rfl, last⟩ := Path.exists_extension has_dot
        rw [Path.cutExtension?_append before last] at stem
        cases before with
        | nil => exact Or.inl stem
        | cons => exact Or.inr ⟨extension, last, congrArg (· ++ _) stem⟩
      · rw [Path.cutExtension?_of_no_dot has_dot] at stem
        exact Or.inl stem
    · rintro ⟨_, same, named⟩
      obtain rfl := Option.some.inj same
      rcases named with rfl | ⟨extension, last, rfl⟩
      · rw [Path.cutExtension?_of_no_dot no_dot]
      · rw [Path.cutExtension?_append ownName last]
        rfl

end Admin

/-! ### The file of a running program -/

section Place

variable {m : Machine} {env : Environment} {t : FileTree} {c : Command} {image : Image}

/-- A walk that starts at a place with proper names halts at one. -/
theorem advance_isProper {l : Location} {todo : List Name} {halt : Halt}
    (names : ∀ name ∈ l, Path.IsProper name) (parts : ∀ name ∈ todo, IsPart name)
    (walked : advance t l todo = .ok halt) :
    (∃ r, halt = .reached r ∧ ∀ name ∈ r, Path.IsProper name) ∨
      ∃ dir target rest, halt = .link dir target rest ∧ (∀ name ∈ dir, Path.IsProper name) ∧
        ∀ name ∈ rest, IsPart name := by
  induction todo generalizing l with
  | nil => exact Or.inl ⟨l, (Except.ok.inj walked).symm, names⟩
  | cons name todo ih =>
    have directory := directory_of_advance walked
    obtain ⟨isPart, rest⟩ := List.forall_mem_cons.mp parts
    by_cases ne_here : name = Path.here
    · subst ne_here
      rw [advance_here directory] at walked
      exact ih names rest walked
    by_cases ne_above : name = Path.above
    · subst ne_above
      rw [advance_above directory] at walked
      exact ih (fun other mem => names other (List.dropLast_subset l mem)) rest walked
    have names' : ∀ other ∈ l ++ [name], Path.IsProper other := by
      intro other mem
      rcases List.mem_append.mp mem with mem | mem
      · exact names other mem
      · exact List.mem_singleton.mp mem ▸ ⟨isPart.1, isPart.2, ne_here, ne_above⟩
    obtain ⟨-, cases⟩ := cases_of_advance_name ne_here ne_above walked
    rcases cases with ⟨target, -, rfl⟩ | ⟨-, walked⟩ | ⟨n, -, -, -, rfl⟩
    · exact Or.inr ⟨l, target, todo, rfl, names, rest⟩
    · exact ih names' rest walked
    · exact Or.inl ⟨_, rfl, names'⟩

theorem origin_isProper {dir : Location} (names : ∀ name ∈ dir, Path.IsProper name) (p : Path) :
    ∀ name ∈ origin dir p, Path.IsProper name := by
  unfold origin
  split
  · exact fun _ mem => absurd mem List.not_mem_nil
  · exact names

theorem follow_isProper {links left : Nat} {l r : Location} {todo : List Name}
    (names : ∀ name ∈ l, Path.IsProper name) (parts : ∀ name ∈ todo, IsPart name)
    (walked : follow t links l todo = .ok (r, left)) : ∀ name ∈ r, Path.IsProper name := by
  induction links using Nat.strongRecOn generalizing l todo with
  | ind links ih =>
    rcases cases_of_follow walked with ⟨halted, rfl⟩ | ⟨dir, target, rest, links, halted, rfl, onward⟩
    · rcases advance_isProper names parts halted with ⟨_, reached, names⟩ | ⟨_, _, _, none, _⟩
      · obtain rfl := Halt.reached.inj reached
        exact names
      · cases none
    · rcases advance_isProper names parts halted with ⟨_, none, _⟩ | ⟨_, _, _, link, names, parts⟩
      · cases none
      · obtain ⟨rfl, rfl, rfl⟩ := Halt.link.inj link
        refine ih links (Nat.lt_succ_self _) (origin_isProper names target) ?_ onward
        intro name mem
        rcases List.mem_append.mp mem with mem | mem
        · exact isPart_of_mem_steps mem
        · exact parts name mem

/-- The file that is run under a path lies in a directory and has a proper name. -/
theorem place_of_findFile (here : ∀ name ∈ t.here, Path.IsProper name) {p : Path} {place : Location}
    {contents : Bytes} (found : findFile t p = .ok (place, contents)) :
    place ≠ [] ∧ ∀ name ∈ place, Path.IsProper name := by
  unfold findFile at found
  split at found
  · cases found
  split at found
  · cases found
  next l resolved =>
    split at found
    next mode contents' node =>
      split at found
      next =>
        obtain ⟨rfl, -⟩ := Prod.mk.inj (Except.ok.inj found)
        obtain ⟨-, left, walked⟩ := resolve_eq_ok_iff.mp resolved
        refine ⟨?_, follow_isProper (origin_isProper here p) (fun _ => isPart_of_mem_steps) walked⟩
        rintro rfl
        cases node
      next => cases found
    next => cases found

theorem place_of_findImage (here : ∀ name ∈ t.here, Path.IsProper name) {scripts : Nat}
    (found : findImage m env t scripts c = .ok image) :
    image.place ≠ [] ∧ ∀ name ∈ image.place, Path.IsProper name := by
  induction scripts generalizing c with
  | zero =>
    unfold findImage at found
    split at found
    · cases found
    split at found
    · cases found
    · cases found
  | succ scripts ih =>
    unfold findImage at found
    split at found
    · cases found
    next file =>
      split at found
      · cases found
      dsimp only at found
      split at found
      next =>
        obtain rfl := Except.ok.inj found
        exact place_of_findFile here file
      next => cases found
      next => exact ih found

/-- **The file of a program that runs lies in a directory and has a proper name there.** -/
theorem exists_place (here : ∀ name ∈ t.here, Path.IsProper name)
    (found : findProgram m env t c = .ok image) :
    ∃ dir tool, image.place = dir ++ [tool] ∧ ∀ name ∈ dir ++ [tool], Path.IsProper name := by
  unfold findProgram at found
  split at found
  · cases found
  split at found
  next =>
    obtain ⟨ne, names⟩ := place_of_findImage here found
    refine ⟨image.place.dropLast, image.place.getLast ne, ?_, ?_⟩
    · rw [List.dropLast_concat_getLast ne]
    · rw [List.dropLast_concat_getLast ne]
      exact names
  next => cases found

end Place

/-! ### Two parts that differ -/

/-- A tree in which nothing stands but the root. -/
def nothing : FileTree := ⟨[], [], [], []⟩

/-- Where nothing stands no walk leaves the root. -/
theorem advance_nothing {todo : List Name} {halt : Halt} (walked : advance nothing [] todo = .ok halt) :
    halt = .reached [] ∧ ∀ name ∈ todo, name = Path.here ∨ name = Path.above := by
  induction todo with
  | nil => exact ⟨(Except.ok.inj walked).symm, fun _ mem => absurd mem List.not_mem_nil⟩
  | cons name todo ih =>
    by_cases ne_here : name = Path.here
    · rw [ne_here, advance_here rfl] at walked
      exact ⟨(ih walked).1, List.forall_mem_cons.mpr ⟨Or.inl ne_here, (ih walked).2⟩⟩
    by_cases ne_above : name = Path.above
    · rw [ne_above, advance_above rfl] at walked
      exact ⟨(ih walked).1, List.forall_mem_cons.mpr ⟨Or.inr ne_above, (ih walked).2⟩⟩
    · obtain ⟨-, cases⟩ := cases_of_advance_name ne_here ne_above walked
      rcases cases with ⟨_, node, -⟩ | ⟨node, -⟩ | ⟨_, node, -⟩ <;> cases node

theorem isPresent_nothing (dir : Path) (name : Name) (proper : Path.IsProper name) :
    nothing.isPresent (dir.join name) = false := by
  cases resolved : nothing.resolve (dir.join name) with
  | error fault =>
    unfold isPresent
    rw [resolved]
    rfl
  | ok l =>
    obtain ⟨-, left, walked⟩ := resolve_eq_ok_iff.mp resolved
    have root : origin nothing.here (dir.join name) = [] := by
      unfold origin
      split <;> rfl
    rw [root, Path.steps_join dir proper.ne_nil proper.no_slash] at walked
    rcases cases_of_follow walked with ⟨halted, -⟩ | ⟨_, _, _, _, halted, -⟩
    · rcases (advance_nothing halted).2 name (by simp) with rfl | rfl
      · exact absurd rfl proper.ne_here
      · exact absurd rfl proper.ne_above
    · cases (advance_nothing halted).1

/-- The process that runs the wrapper's program is the administration command line: in every
environment, and whatever stands in the tree, it does what that does. -/
def Administers (place : Location) (c : Command) : Prop :=
  ∀ exec env t, runWrapper exec env t place c = some (actAsAdmin env t place c.args)

/-- The process that runs the wrapper's program stands in for a compiler: in every environment, and
whatever stands in the tree, it serves a call that names the compiler. -/
def StandsInFor (place : Location) (c : Command) (tool : Name) : Prop :=
  Call.tool ⟨c.arg0, c.args, absolutePath place⟩ = .ok tool ∧
    ∀ exec env t, runWrapper exec env t place c = actAsCompiler exec env t place (c.arg0 :: c.args)

/-- A compiler may run for ever, and then so does the process that stands in for it. -/
theorem actAsCompiler_nothing (place : Location) (arg0 : Bytes) (args : List Bytes) :
    actAsCompiler (fun _ _ _ => none) [] nothing place (arg0 :: args) = none := by
  let c : Call := ⟨arg0, args, absolutePath place⟩
  have flags : Flags.resolve (nothing.start place) c.dir = .ok (.builtIn, []) := by
    have absent := isPresent_nothing c.dir (.ofText Flags.fileName) (by decide)
    rw [resolve_start]
    unfold Flags.resolve
    dsimp only
    rw [Flags.load_of_absent absent]
    rfl
  have direct : Environment.get? [] redirectVariable = none := rfl
  have served := serveCall_direct (c := c)
    (w := ⟨nothing.start place, [], Filter.showWarnings (wrapperFilter []).2⟩)
    (fun _ _ _ => none) direct rfl flags
  unfold actAsCompiler
  dsimp only
  change ((serveCall _ [] c.wrapper (c.name :: c.args)).run _).bind _ = none
  rw [served]
  rfl

/-- The administration command line never runs for ever, so no process takes both parts. -/
theorem administers_iff (place : Location) (c : Command) :
    Administers place c ↔ Admin.IsNamed c.arg0 := by
  rw [← Admin.isAdmin_iff]
  constructor
  · intro administers
    by_contra other
    have answers := administers (fun _ _ _ => none) [] nothing
    unfold runWrapper at answers
    rw [if_neg other, actAsCompiler_nothing] at answers
    cases answers
  · intro named exec env t
    unfold runWrapper
    rw [if_pos named]

theorem standsInFor_iff {dir : Location} {tool : Name}
    (names : ∀ name ∈ dir ++ [tool], Path.IsProper name) (c : Command) (other : Name) :
    StandsInFor (dir ++ [tool]) c other ↔ other = tool ∧ ¬ Admin.IsNamed c.arg0 := by
  have named : Call.tool ⟨c.arg0, c.args, absolutePath (dir ++ [tool])⟩ = .ok tool := by
    unfold Call.tool absolutePath
    rw [Path.fileName?_absolute names]
  unfold StandsInFor
  rw [named, Except.ok.injEq, eq_comm]
  refine and_congr_right fun _ => ?_
  rw [← Admin.isAdmin_iff]
  constructor
  · intro serves named
    have answers := serves (fun _ _ _ => none) [] nothing
    rw [actAsCompiler_nothing] at answers
    unfold runWrapper at answers
    rw [if_pos named] at answers
    cases answers
  · intro other exec env t
    unfold runWrapper
    rw [if_neg other]

/-- **A process that runs the wrapper's program is the administration command line exactly if the
name that its caller passes has the file name `ccwrap`, with or without an extension. Every other
one stands in for the compiler under whose name its own file lies.** If the passed name has the file
name of that file, and this is not `ccwrap` with an extension, then the process is the administration
command line exactly if its file is called `ccwrap`. -/
theorem role_iff {m : Machine} {env : Environment} {t : FileTree} {c : Command} {image : Image}
    (here : ∀ name ∈ t.here, Path.IsProper name) (found : findProgram m env t c = .ok image)
    (wrapper : image.program = .wrapper) :
    (∀ fuel, execute m (fuel + 1) env t c =
      (runWrapper (execute m fuel) env t image.place image.command).map .ok) ∧
    (Administers image.place image.command ↔ Admin.IsNamed image.command.arg0) ∧
    ∃ tool, Path.fileName? (absolutePath image.place) = some tool ∧
      (∀ other, StandsInFor image.place image.command other ↔
        other = tool ∧ ¬ Admin.IsNamed image.command.arg0) ∧
      (Path.fileName? image.command.arg0 = some tool →
        (∀ extension, Path.dot ∉ extension → tool ≠ Admin.ownName ++ Path.dot :: extension) →
        (Administers image.place image.command ↔ tool = Admin.ownName) ∧
          (tool ≠ Admin.ownName → StandsInFor image.place image.command tool)) := by
  obtain ⟨dir, tool, place, names⟩ := exists_place here found
  have runs : ∀ fuel, execute m (fuel + 1) env t c =
      (runWrapper (execute m fuel) env t image.place image.command).map .ok := by
    intro fuel
    rw [execute, found]
    dsimp only
    rw [wrapper]
  have standsIn := standsInFor_iff names image.command
  rw [← place] at standsIn
  have administers := administers_iff image.place image.command
  refine ⟨runs, administers, tool, ?_, standsIn, fun passed plain => ?_⟩
  · rw [place]
    exact Path.fileName?_absolute names
  · have same : Admin.IsNamed image.command.arg0 ↔ tool = Admin.ownName := by
      constructor
      · rintro ⟨name, passed', own | ⟨extension, no_dot, named⟩⟩
        · exact (Option.some.inj (passed.symm.trans passed')).trans own
        · exact absurd ((Option.some.inj (passed.symm.trans passed')).trans named)
            (plain extension no_dot)
      · intro own
        exact ⟨tool, passed, Or.inl own⟩
    exact ⟨administers.trans same,
      fun ne => (standsIn tool).mpr ⟨rfl, fun named => ne (same.mp named)⟩⟩

/-! ### Processes of which the file is called otherwise -/

namespace Names

/-- The wrapper, and a compiler that prints its arguments. -/
def machine : Machine where
  load contents :=
    if contents = [0] then some .wrapper
    else if contents = [1] then some (.other fun _ c t => (t, ⟨c.args.flatten, [], .exited 0⟩))
    else none

/-- The place of a file. -/
def place (name : String) : Location := [Bytes.ofText "bin", Bytes.ofText name]

/-- The wrapper under three names, each time with a real compiler beside it. -/
def tree : FileTree where
  nodes := ([Bytes.ofText "bin"], .directory) :: ["clang", "ccwrap", "ccwrap.18"].flatMap fun name =>
    [(place name, .file 0o755 [0]), (place (name ++ realSuffix), .file 0o755 [1])]
  here := []

/-- A call of a file, in which the caller passes some name. -/
def call (file passed : String) : Command :=
  ⟨absolutePath (place file), Bytes.ofText passed, [Bytes.ofText "--version"]⟩

/-- What the call runs. -/
def image (file passed : String) : Image := ⟨.wrapper, place file, call file passed⟩

/-- What the call prints. -/
def printed (file passed : String) : Option Bytes :=
  match execute machine 2 [] tree (call file passed) with
  | some (.ok (_, answer)) => some answer.stdout
  | _ => none

/-- What the compiler prints that gets the arguments of the call and the flags that are added. -/
def compiled : Bytes :=
  Bytes.ofText "--version" ++ (Flags.builtIn.demoted.map Bytes.ofText).flatten

/-- The call runs the wrapper, and the name of its file does not tell which part it takes. -/
structure Misleads (file passed : String) : Prop where
  found : findProgram machine [] tree (call file passed) = .ok (image file passed)
  named : Path.fileName? (absolutePath (place file)) = some (Bytes.ofText file)
  misled : ¬ (Administers (place file) (call file passed) ↔ Bytes.ofText file = Admin.ownName)

theorem misleads {file passed : String}
    (found : findProgram machine [] tree (call file passed) = .ok (image file passed))
    (named : Path.fileName? (absolutePath (place file)) = some (Bytes.ofText file))
    (apart : ¬ (Admin.isAdmin (Bytes.ofText passed) = true ↔ Bytes.ofText file = Admin.ownName)) :
    Misleads file passed := by
  refine ⟨found, named, ?_⟩
  rw [administers_iff, ← Admin.isAdmin_iff]
  exact apart

end Names

open Names

theorem role_iff_clang :
    findProgram machine [] tree (call "clang" "bin/clang") = .ok (image "clang" "bin/clang") ∧
      ¬ Administers (place "clang") (call "clang" "bin/clang") ∧
      StandsInFor (place "clang") (call "clang" "bin/clang") (Bytes.ofText "clang") ∧
      printed "clang" "bin/clang" = some compiled := by
  have found : findProgram machine [] tree (call "clang" "bin/clang") =
      .ok (image "clang" "bin/clang") := rfl
  obtain ⟨-, -, tool, file, -, agrees⟩ := role_iff (fun _ mem => absurd mem List.not_mem_nil) found rfl
  obtain rfl : Bytes.ofText "clang" = tool := Option.some.inj file
  have plain : ∀ extension, Path.dot ∉ extension →
      Bytes.ofText "clang" ≠ Admin.ownName ++ Path.dot :: extension := by
    intro extension _ same
    have front := congrArg (List.take 2) same
    rw [List.take_append_of_le_length (by decide)] at front
    exact absurd front (by decide)
  obtain ⟨administers, standsIn⟩ := agrees rfl plain
  exact ⟨found, fun h => absurd (administers.mp h) (by decide), standsIn (by decide), rfl⟩

/-- A compiler that is called by the name of the administration command line tells its version and
compiles nothing; the administration command line that is called by another name looks for a real
compiler of its own name; and a tool that is called `ccwrap` with an extension is no tool at all. -/
theorem role_misled :
    Misleads "clang" "ccwrap" ∧ Misleads "ccwrap" "clang" ∧ Misleads "ccwrap.18" "ccwrap.18" ∧
      printed "clang" "ccwrap" = some (Bytes.ofText Admin.versionLine) ∧
      printed "ccwrap" "clang" = some compiled ∧
      printed "ccwrap.18" "ccwrap.18" = some (Bytes.ofText Admin.versionLine) :=
  ⟨misleads rfl rfl (by decide), misleads rfl rfl (by decide), misleads rfl rfl (by decide), rfl, rfl,
    rfl⟩

end CompilerWrapper
